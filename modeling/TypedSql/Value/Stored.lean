import TypedSql.Value.Basic
import TypedSql.Cell.Basic
import TypedSql.Calendar.DateTimeText

/-! Values as cells. A parameter of a statement carries the cell of its value. -/
namespace TypedSql

open Numeric

namespace Value

def ofBool (b : Bool) : MachineInt .i64 :=
  if b then ⟨1, by decide, by decide⟩ else ⟨0, by decide, by decide⟩

def ofChar (c : Char) : MachineInt .i64 :=
  ⟨c.toNat, by
    have : IntType.least .i64 ≤ 0 := IntType.least_nonpos _
    omega, by
    have h : c.toNat < 1114112 := by
      have := c.valid
      simp only [UInt32.isValidChar, Nat.isValidChar] at this
      change c.val.toNat < 1114112
      omega
    have : (1114112 : Int) ≤ IntType.greatest .i64 := by decide
    omega⟩

/-- The cell that stores a value. Only an unsigned number beyond the signed range has none. Types
without a storage class of their own are stored as text. -/
def stored : Value → Except RangeFault Cell
  | .null => .ok .null
  | .bool b => .ok (.integer (ofBool b))
  | .char c => .ok (.integer (ofChar c))
  | .integer n => .ok (.integer n)
  | .unsigned n => (MachineInt.ofInt .i64 n.val).map .integer
  | .real x => .ok (.real x)
  | .text s => .ok (.text s)
  | .blob bytes => .ok (.blob bytes)
  | .decimal d => .ok (.text d.text)
  | .dateTime t => .ok (.text t.storedText)
  | .uuid u => .ok (.text u.text)
  | .raw sql => .ok (.text sql)

theorem stored_ofCell (c : Cell) : (Value.ofCell c).stored = .ok c := by
  cases c with
  | null | integer | real | text | blob => rfl

end Value

end TypedSql
