import TypedSql.Category
import TypedSql.ScalarType
import TypedSql.Text.Uppercase

/-! Columns of a table: the property behind one, its key flags, collation and default. -/
namespace TypedSql

/-- Collating sequences of text columns. -/
inductive Collation where
  /-- The one that applies when none is named. -/
  | standard
  | binary
  | noCase
  | rTrim
  | custom (name : String)
  deriving DecidableEq, Repr

namespace Collation

/-- The name behind `COLLATE`. A custom name is written in upper case. -/
def keyword? : Collation → Option String
  | .standard => none
  | .binary => some "BINARY"
  | .noCase => some "NOCASE"
  | .rTrim => some "RTRIM"
  | .custom name => some (Text.Uppercase.ofText name)

/-- The collations that are named by a word alone. -/
def named : List (String × Collation) :=
  [("default", .standard), ("binary", .binary), ("no_case", .noCase), ("r_trim", .rTrim)]

end Collation

/-- What a column holds: values of a category, which may be absent when it is nullable. -/
structure Property where
  category : Category
  nullable : Bool
  deriving DecidableEq, Repr

namespace Property

def ofField (type : FieldType) : Property := ⟨type.category, type.isNullable⟩

end Property

/-- A default as text. The category decides whether it is quoted; the text itself is never
escaped. -/
structure DefaultValue where
  text : String
  category : Category
  deriving DecidableEq, Repr

namespace DefaultValue

/-- The default that a value of a scalar type makes, if its type has one. -/
def ofScalar? (type : ScalarType) (x : type.Carrier) : Option DefaultValue :=
  (type.display? x).map (⟨·, type.category⟩)

def ofBool (b : Bool) : DefaultValue := ⟨if b then "1" else "0", .bool⟩

end DefaultValue

structure Column where
  name : String
  property : Property
  primaryKey : Bool
  unique : Bool
  autoincrement : Bool
  collation : Collation
  required : Bool
  default : Option DefaultValue
  deriving DecidableEq, Repr

namespace Column

/-- A column about which nothing is said but name and type. -/
def plain (name : String) (property : Property) : Column :=
  { name, property, primaryKey := false, unique := false, autoincrement := false,
    collation := .standard, required := false, default := none }

def category (c : Column) : Category := c.property.category

end Column

end TypedSql
