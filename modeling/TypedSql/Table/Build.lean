import TypedSql.Text.Blank
import TypedSql.Table.Basic

/-! Building the description of a table step by step, and the checks at the end. The checks run in
a fixed order and the first that fails is reported. Several flagged columns without a composite key
become the composite key, in column order. -/
namespace TypedSql

/-- Why a description of a table is not accepted. -/
inductive TableError where
  | blankName
  | noColumns (table : String)
  | repeatedColumn (table column : String)
  | twoKeys (table column : String)
  | autoincrementOutsideKey (table column : String)
  | rowidNeedsKey (table : String)
  | unknownColumn (table column : String)
  | emptyUnique (table name : String)
  | keyArity (table parent : String) (localCount parentCount : Nat)
  deriving DecidableEq, Repr

namespace TableError

private def shown (name : String) : String := "`" ++ name ++ "`"

def message : TableError → String
  | .blankName => "table name must not be empty"
  | .noColumns table => "table " ++ shown table ++ " has no columns"
  | .repeatedColumn table column =>
    "column " ++ shown column ++ " is declared twice on table " ++ shown table
  | .twoKeys table column =>
    "table " ++ shown table ++ " declares a composite primary key but column " ++ shown column ++
      " is also flagged PRIMARY KEY"
  | .autoincrementOutsideKey table column =>
    "column " ++ shown column ++ " on table " ++ shown table ++
      " is AUTOINCREMENT but is not the single primary key"
  | .rowidNeedsKey table =>
    "table " ++ shown table ++ " is WITHOUT ROWID but declares no primary key"
  | .unknownColumn table column =>
    "table " ++ shown table ++ " references unknown column " ++ shown column
  | .emptyUnique table name =>
    "unique constraint " ++ shown name ++ " on table " ++ shown table ++ " has no columns"
  | .keyArity table parent localCount parentCount =>
    "foreign key on table " ++ shown table ++ " referencing " ++ shown parent ++ " maps " ++
      toString localCount ++ " local column(s) onto " ++ toString parentCount ++
      " parent column(s)"

end TableError

inductive TableStep where
  | column (c : Column)
  /-- Declares the composite key, in place of an earlier one. -/
  | compositeKey (columns : List String)
  | unique (u : UniqueGroup)
  | foreignKey (k : ForeignKey)
  | withoutRowid
  deriving DecidableEq, Repr

namespace Table

def extend (t : Table) : TableStep → Table
  | .column c => { t with columns := t.columns ++ [c] }
  | .compositeKey columns => { t with compositeKey := columns }
  | .unique u => { t with uniques := t.uniques ++ [u] }
  | .foreignKey k => { t with foreignKeys := t.foreignKeys ++ [k] }
  | .withoutRowid => { t with withoutRowid := true }

def ofSteps (name : String) (steps : List TableStep) : Table :=
  steps.foldl extend (.empty name)

/-- Stops with an error if there is one. -/
def reject {α : Type} (error : α → TableError) : Option α → Except TableError Unit
  | some x => .error (error x)
  | none => .ok ()

/-- The first name in a list that occurs before its place. -/
def firstRepeated? (seen : List String) : List String → Option String
  | [] => none
  | name :: rest =>
    if name ∈ seen then some name else firstRepeated? (name :: seen) rest

def firstUnknown? (t : Table) (names : List String) : Option String :=
  names.find? (!t.declares ·)

def checkName (t : Table) : Except TableError Unit :=
  if Text.isAllBlank t.name then .error .blankName else .ok ()

def checkColumns (t : Table) : Except TableError Unit :=
  if t.columns.isEmpty then .error (.noColumns t.name)
  else reject (.repeatedColumn t.name) (firstRepeated? [] (t.columns.map (·.name)))

/-- A composite key that is declared excludes flagged columns. -/
def checkKey (t : Table) : Except TableError Unit :=
  if t.compositeKey.isEmpty then .ok ()
  else reject (fun c : Column => .twoKeys t.name c.name) t.flagged.head?

/-- Two flagged columns or more become the composite key. -/
def foldKey (t : Table) : Table :=
  if t.compositeKey.isEmpty ∧ 1 < t.flagged.length then
    { t with
      compositeKey := t.flagged.map (·.name)
      columns := t.columns.map fun c => { c with primaryKey := false } }
  else t

def checkAutoincrement (t : Table) : Except TableError Unit :=
  reject (fun c : Column => .autoincrementOutsideKey t.name c.name)
    (t.columns.find? fun c => c.autoincrement && !c.primaryKey)

def checkRowid (t : Table) : Except TableError Unit :=
  if t.withoutRowid ∧ t.compositeKey.isEmpty ∧ t.flagged.isEmpty then
    .error (.rowidNeedsKey t.name)
  else .ok ()

def checkNames (t : Table) (names : List String) : Except TableError Unit :=
  reject (.unknownColumn t.name) (t.firstUnknown? names)

def checkUnique (t : Table) (u : UniqueGroup) : Except TableError Unit :=
  if u.columns.isEmpty then .error (.emptyUnique t.name u.name)
  else t.checkNames u.columns

def checkForeignKey (t : Table) (k : ForeignKey) : Except TableError Unit :=
  if k.columns.isEmpty ∨ k.columns.length ≠ k.parentColumns.length then
    .error (.keyArity t.name k.parent k.columns.length k.parentColumns.length)
  else t.checkNames k.columns

/-- Runs a check on each element, up to the first that fails. -/
def checkAll {α : Type} (check : α → Except TableError Unit) : List α → Except TableError Unit
  | [] => .ok ()
  | x :: rest => do
    check x
    checkAll check rest

/-- Checks a description and settles its key. -/
def validate (t : Table) : Except TableError Table := do
  t.checkName
  t.checkColumns
  t.checkKey
  let t := t.foldKey
  t.checkAutoincrement
  t.checkRowid
  t.checkNames t.compositeKey
  checkAll t.checkUnique t.uniques
  checkAll t.checkForeignKey t.foreignKeys
  pure t

def build (name : String) (steps : List TableStep) : Except TableError Table :=
  (ofSteps name steps).validate

end Table

end TypedSql
