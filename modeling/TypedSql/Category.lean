import TypedSql.Numeric.MachineInt

/-! What kind of property stands behind a column, and the types that a column can be declared with.
Some categories have no column type; a table with such a column cannot be created. -/
namespace TypedSql

open Numeric

/-- The type in the declaration of a column, which decides what may be said about the column. -/
inductive Affinity where
  | integer
  | text
  | blob
  | real
  | numeric
  deriving DecidableEq, Repr

namespace Affinity

def keyword : Affinity → String
  | .integer => "INTEGER"
  | .text => "TEXT"
  | .blob => "BLOB"
  | .real => "REAL"
  | .numeric => "NUMERIC"

def allowsAutoincrement (a : Affinity) : Bool := a == .integer

def allowsCollation (a : Affinity) : Bool := a == .text

/-- Numbers are written without quotes in a default. -/
def hasBareDefault (a : Affinity) : Bool := a == .integer || a == .real

end Affinity

/-- What kind of property stands behind a column. -/
inductive Category where
  | bool
  | int (type : IntType)
  | char
  | text
  | object
  | decimal
  | dateTime
  | double
  | single
  | uuid
  | unknown
  deriving DecidableEq, Repr

namespace Category

def name : Category → String
  | .bool => "bool"
  | .int type => type.name
  | .char => "char"
  | .text => "text"
  | .object => "object"
  | .decimal => "decimal"
  | .dateTime => "datetime"
  | .double => "f64"
  | .single => "f32"
  | .uuid => "uuid"
  | .unknown => "unknown"

def tag : Category → String
  | .dateTime => "date_time"
  | c => c.name

def all : List Category :=
  [.bool, .int .i8, .int .i16, .int .i32, .int .i64, .char, .text, .object, .decimal, .dateTime,
    .double, .int .u8, .int .u16, .int .u32, .int .u64, .single, .uuid, .unknown]

def ofTag? (tag : String) : Option Category := all.find? (·.tag == tag)

/-- The type of a column of the category. Unsigned integers, single precision numbers and
identifiers have none. -/
def affinity? : Category → Option Affinity
  | .bool | .char => some .integer
  | .int type => if type.isSigned then some .integer else none
  | .text => some .text
  | .object => some .blob
  | .decimal | .dateTime => some .numeric
  | .double => some .real
  | .single | .uuid | .unknown => none

theorem ofTag?_tag (c : Category) : ofTag? c.tag = some c := by
  rcases c with _ | (_ | _ | _ | _ | _ | _ | _ | _) | _ | _ | _ | _ | _ | _ | _ | _ | _ <;> decide

end Category

end TypedSql
