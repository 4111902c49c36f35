import TypedSql.Value.Basic
import TypedSql.Text.Delimited
import TypedSql.Text.Hex
import TypedSql.Calendar.DateTimeText

/-! Values as SQL text. -/
namespace TypedSql.Value

open Numeric Text

def blobLiteral (bytes : List UInt8) : String :=
  "X'" ++ String.ofList (Hex.ofBytes .upper bytes) ++ "'"

/-- The literal of a value. Truth values are one and zero, characters their code points; dates and
identifiers are quoted texts, and a raw value is its own text. -/
def literal : Value → String
  | .null => "NULL"
  | .bool b => if b then "1" else "0"
  | .char c => String.ofList (digits c.toNat)
  | .integer n => String.ofList (intText n.val)
  | .unsigned n => String.ofList (intText n.val)
  | .real x => floatText x
  | .text s => quote s
  | .blob bytes => blobLiteral bytes
  | .decimal d => d.text
  | .dateTime t => quote t.storedText
  | .uuid u => quote u.text
  | .raw sql => sql

end TypedSql.Value
