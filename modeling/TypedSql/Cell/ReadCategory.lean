import TypedSql.Category
import TypedSql.Cell.Read
import TypedSql.Value.Basic

/-! Reading a cell as the value of a column. -/
namespace TypedSql

open Numeric

/-- The type that the cells of a category are read as. Cells of the other categories are values as
they stand. -/
def Category.readType? : Category → Option ScalarType
  | .bool => some .bool
  | .int .u8 => some (.int .u8)
  | .int .i16 => some (.int .i16)
  | .int .i32 => some (.int .i32)
  | .int .i64 => some (.int .i64)
  | .char => some .char
  | .decimal => some .decimal
  | .double => some .double
  | _ => none

namespace Cell

/-- Reads a cell of a column of the given category. NULL is the null value of every category. -/
def read (category : Category) : Cell → Except ConversionError Value
  | .null => .ok .null
  | c =>
    match category.readType? with
    | some type => (readAs type c).map (Value.ofScalar type)
    | none => .ok (Value.ofCell c)

end Cell

end TypedSql
