import TypedSql.Numeric.MachineInt
import TypedSql.Numeric.FloatText
import TypedSql.Text.Utf8

/-! What one column of one row holds: a value of one of five storage classes. -/
namespace TypedSql

open Numeric Text

inductive StorageClass where
  | null
  | integer
  | real
  | text
  | blob
  deriving DecidableEq, Repr

namespace StorageClass

def name : StorageClass → String
  | .null => "null"
  | .integer => "integer"
  | .real => "real"
  | .text => "text"
  | .blob => "blob"

def keyword : StorageClass → String
  | .null => "NULL"
  | .integer => "INTEGER"
  | .real => "REAL"
  | .text => "TEXT"
  | .blob => "BLOB"

end StorageClass

inductive Cell where
  | null
  | integer (n : MachineInt .i64)
  | real (x : Double)
  | text (s : String)
  | blob (bytes : List UInt8)
  deriving DecidableEq, Repr

namespace Cell

def storageClass : Cell → StorageClass
  | .null => .null
  | .integer _ => .integer
  | .real _ => .real
  | .text _ => .text
  | .blob _ => .blob

def isNull (c : Cell) : Bool := c == .null

/-- A text cell whose bytes may be damaged. They are taken as they are if they are UTF-8, otherwise
what is not is replaced. -/
def ofTextBytes (bytes : List UInt8) : Cell :=
  match Utf8.decode bytes with
  | .ok cs => .text (String.ofList cs)
  | .error _ => .text (String.ofList (Utf8.decodeLenient bytes))

/-- The text of a cell for a reader; a blob shows its size only. -/
def display : Cell → String
  | .null => "NULL"
  | .integer n => String.ofList (intText n.val)
  | .real x => floatText x
  | .text s => s
  | .blob bytes => "<" ++ toString bytes.length ++ " byte blob>"

/-- Equality of cells that counts all NaNs as one. -/
def Same : Cell → Cell → Prop
  | .real x, .real y => x.Same y
  | a, b => a = b

end Cell

end TypedSql
