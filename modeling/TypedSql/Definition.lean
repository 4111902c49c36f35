import TypedSql.Text.Delimited
import TypedSql.Table.Basic

/-! Statements that create and drop a table. A description is first turned into the statement as
data, which fails when a column or a default has no column type; the text of a statement is then
always defined. -/
namespace TypedSql

open Text

/-- The choices about a statement that creates a table. -/
structure CreateOptions where
  ifNotExists : Bool
  temporary : Bool
  strict : Bool
  deriving DecidableEq, Repr

def CreateOptions.none : CreateOptions := ⟨false, false, false⟩

/-- A column or its default has a category that the statement cannot express. -/
inductive UnsupportedType where
  | column (name : String) (category : Category)
  | default (name : String) (category : Category)
  deriving DecidableEq, Repr

def UnsupportedType.message : UnsupportedType → String
  | .column name category => "unsupported type `" ++ category.name ++ "` for " ++ name
  | .default name category => "unsupported type `" ++ category.name ++ "` for default of " ++ name

/-- A default in a statement. Quoting puts double quotes around the text and escapes nothing. -/
structure DefaultClause where
  text : String
  quoted : Bool
  deriving DecidableEq, Repr

namespace DefaultClause

def ofDefault (column : String) (d : DefaultValue) : Except UnsupportedType DefaultClause :=
  match d.category.affinity? with
  | some a => .ok ⟨d.text, !a.hasBareDefault⟩
  | none => .error (.default column d.category)

def render (d : DefaultClause) : String := if d.quoted then "\"" ++ d.text ++ "\"" else d.text

end DefaultClause

structure ColumnDefinition where
  name : String
  affinity : Affinity
  primaryKey : Bool
  autoincrement : Bool
  unique : Bool
  collation : Option String
  notNull : Bool
  default : Option DefaultClause
  deriving DecidableEq, Repr

namespace ColumnDefinition

def affinityOf (c : Column) : Except UnsupportedType Affinity :=
  match c.category.affinity? with
  | some a => .ok a
  | none => .error (.column c.name c.category)

def defaultOf (c : Column) : Except UnsupportedType (Option DefaultClause) :=
  match c.default with
  | none => .ok none
  | some d => (DefaultClause.ofDefault c.name d).map some

/-- The definition of a column. `isKey` tells that the column is the key by itself. Such a column
needs no `NOT NULL`, and one that numbers its rows is unique already. -/
def ofColumn (c : Column) (isKey : Bool) : Except UnsupportedType ColumnDefinition := do
  let affinity ← affinityOf c
  let default ← defaultOf c
  let autoincrement := c.autoincrement && affinity.allowsAutoincrement
  pure
    { name := c.name
      affinity
      primaryKey := isKey
      autoincrement
      unique := c.unique && !autoincrement
      collation := if affinity.allowsCollation then c.collation.keyword? else none
      notNull := c.required || (!isKey && !c.property.nullable)
      default }

/-- A clause that is written when it holds. -/
def clause (holds : Bool) (text : String) : String := if holds then text else ""

def render (d : ColumnDefinition) : String :=
  identifier d.name ++ " " ++ d.affinity.keyword ++ clause d.primaryKey " PRIMARY KEY" ++
    clause d.autoincrement " AUTOINCREMENT" ++ clause d.unique " UNIQUE" ++
    (match d.collation with
      | some name => " COLLATE " ++ name
      | none => "") ++
    clause d.notNull " NOT NULL" ++
    (match d.default with
      | some clause => " DEFAULT " ++ clause.render
      | none => "")

end ColumnDefinition

inductive Definition where
  | column (d : ColumnDefinition)
  | primaryKey (columns : List String)
  | unique (columns : List String)
  | foreignKey (k : ForeignKey)
  deriving DecidableEq, Repr

namespace Definition

/-- The clause of an action, nothing for the one that applies anyway. -/
def actionClause (event : String) (a : ReferentialAction) : String :=
  if a = .noAction then "" else " ON " ++ event ++ " " ++ a.keyword

def render : Definition → String
  | .column d => d.render
  | .primaryKey columns => "PRIMARY KEY(" ++ identifierList columns ++ ")"
  | .unique columns => "UNIQUE(" ++ identifierList columns ++ ")"
  | .foreignKey k =>
    "FOREIGN KEY(" ++ identifierList k.columns ++ ") REFERENCES " ++ identifier k.parent ++
      "(" ++ identifierList k.parentColumns ++ ")" ++
      actionClause "UPDATE" k.onUpdate ++ actionClause "DELETE" k.onDelete

end Definition

structure CreateTable where
  options : CreateOptions
  name : String
  definitions : List Definition
  withoutRowid : Bool
  deriving DecidableEq, Repr

namespace CreateTable

def columnDefinitions (single : Bool) : List Column → Except UnsupportedType (List Definition)
  | [] => .ok []
  | c :: rest => do
    let d ← ColumnDefinition.ofColumn c (single && c.primaryKey)
    let ds ← columnDefinitions single rest
    pure (.column d :: ds)

/-- A strict table has no columns of mixed type. -/
def checkStrict : List Column → Except UnsupportedType Unit
  | [] => .ok ()
  | c :: rest => do
    let affinity ← ColumnDefinition.affinityOf c
    if affinity = .numeric then .error (.column c.name c.category) else checkStrict rest

/-- The constraints of a table that follow its columns. -/
def constraints (t : Table) : List Definition :=
  (if !t.hasSingleKey && !t.compositeKey.isEmpty then [.primaryKey t.compositeKey] else []) ++
    t.uniques.map (.unique ·.columns) ++ t.foreignKeys.map .foreignKey

def ofSchema (t : Table) (options : CreateOptions) : Except UnsupportedType CreateTable := do
  if options.strict then checkStrict t.columns
  let columns ← columnDefinitions t.hasSingleKey t.columns
  pure ⟨options, t.name, columns ++ constraints t, t.withoutRowid⟩

def header (s : CreateTable) : String :=
  "CREATE " ++ (if s.options.temporary then "TEMP " else "") ++ "TABLE " ++
    (if s.options.ifNotExists then "IF NOT EXISTS " else "") ++ identifier s.name ++ " (\n"

/-- The text of the statement, one definition to a line. -/
def render (s : CreateTable) : String :=
  s.header ++ String.intercalate ",\n" (s.definitions.map ("\t" ++ ·.render)) ++ "\n)" ++
    (if s.withoutRowid then " WITHOUT ROWID" else "") ++
    (if s.options.strict then " STRICT" else "") ++ ";"

end CreateTable

namespace Table

def createText (t : Table) (options : CreateOptions) : Except UnsupportedType String :=
  (CreateTable.ofSchema t options).map (·.render)

def dropText (t : Table) : String := "DROP TABLE IF EXISTS " ++ identifier t.name ++ ";"

end Table

end TypedSql
