import TypedSql.Numeric.Binary
import TypedSql.Numeric.FloatText
import TypedSql.Decimal.Basic
import TypedSql.Calendar.DateTimeText
import TypedSql.Uuid
import TypedSql.Category

/-! The types of single values in an application, what their values are, and how a property of one
of them is classified as a column. -/
namespace TypedSql

open Numeric

/-- A type whose values can be stored in one column and read back. -/
inductive ScalarType where
  | bool
  | int (type : IntType)
  | single
  | double
  | char
  | text
  | bytes
  | decimal
  | dateTime
  | uuid
  deriving DecidableEq, Repr

namespace ScalarType

@[reducible] def Carrier : ScalarType → Type
  | .bool => Bool
  | .int type => MachineInt type
  | .single => Single
  | .double => Double
  | .char => Char
  | .text => String
  | .bytes => List UInt8
  | .decimal => Decimal
  | .dateTime => DateTime
  | .uuid => Uuid

def category : ScalarType → Category
  | .bool => .bool
  | .int type => .int type
  | .single => .single
  | .double => .double
  | .char => .char
  | .text => .text
  | .bytes => .object
  | .decimal => .decimal
  | .dateTime => .dateTime
  | .uuid => .uuid

/-- The text that stands for a value in a default. Byte strings have none. -/
def display? : (t : ScalarType) → t.Carrier → Option String
  | .bool, b => some (if b then "true" else "false")
  | .int _, n => some (String.ofList (intText n.val))
  | .single, x => some (floatText x)
  | .double, x => some (floatText x)
  | .char, c => some (String.ofList [c])
  | .text, s => some s
  | .bytes, _ => none
  | .decimal, d => some d.text
  | .dateTime, t => some t.displayText
  | .uuid, u => some u.text

end ScalarType

/-- The type of a property: a scalar, a date or a zoned time, or one of these that may be absent. -/
inductive FieldType where
  | scalar (type : ScalarType)
  | date
  | zonedDateTime
  | optional (type : FieldType)
  deriving DecidableEq, Repr

namespace FieldType

/-- An optional property is classified as the property itself. -/
def category : FieldType → Category
  | .scalar type => type.category
  | .date | .zonedDateTime => .dateTime
  | .optional type => type.category

def isNullable : FieldType → Bool
  | .optional _ => true
  | _ => false

end FieldType

end TypedSql
