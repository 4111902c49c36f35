import TypedSql.Table.Column

/-! Descriptions of tables: the columns, and the constraints that concern several of them. -/
namespace TypedSql

/-- What happens to the rows that refer to a changed row. -/
inductive ReferentialAction where
  | noAction
  | restrict
  | cascade
  | setNull
  | setDefault
  deriving DecidableEq, Repr

namespace ReferentialAction

def keyword : ReferentialAction → String
  | .noAction => "NO ACTION"
  | .restrict => "RESTRICT"
  | .cascade => "CASCADE"
  | .setNull => "SET NULL"
  | .setDefault => "SET DEFAULT"

def tag : ReferentialAction → String
  | .noAction => "no_action"
  | .restrict => "restrict"
  | .cascade => "cascade"
  | .setNull => "set_null"
  | .setDefault => "set_default"

def all : List ReferentialAction := [.noAction, .restrict, .cascade, .setNull, .setDefault]

def ofTag? (tag : String) : Option ReferentialAction := all.find? (·.tag == tag)

theorem ofTag?_tag (a : ReferentialAction) : ofTag? a.tag = some a := by
  cases a <;> decide

end ReferentialAction

/-- Columns whose values together are unique. -/
structure UniqueGroup where
  name : String
  columns : List String
  deriving DecidableEq, Repr

/-- Columns that refer to columns of a parent table. -/
structure ForeignKey where
  columns : List String
  parent : String
  parentColumns : List String
  onUpdate : ReferentialAction
  onDelete : ReferentialAction
  deriving DecidableEq, Repr

structure Table where
  name : String
  columns : List Column
  /-- The columns of a key that is declared on the table; empty when a column is the key. -/
  compositeKey : List String
  uniques : List UniqueGroup
  foreignKeys : List ForeignKey
  withoutRowid : Bool
  deriving DecidableEq, Repr

namespace Table

def empty (name : String) : Table := ⟨name, [], [], [], [], false⟩

def flagged (t : Table) : List Column := t.columns.filter (·.primaryKey)

/-- Exactly one column has the key flag and there is no composite key. -/
def hasSingleKey (t : Table) : Bool := t.compositeKey.isEmpty && t.flagged.length == 1

/-- The column that is the key by itself. -/
def keyColumn? (t : Table) : Option Column :=
  if t.hasSingleKey then t.flagged.head? else none

def column? (t : Table) (name : String) : Option Column :=
  t.columns.find? (·.name == name)

def declares (t : Table) (name : String) : Bool := t.columns.any (·.name == name)

end Table

end TypedSql
