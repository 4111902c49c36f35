import TypedSql.Numeric.MachineInt
import TypedSql.Numeric.Binary
import TypedSql.Decimal.Basic
import TypedSql.Calendar.DateTime
import TypedSql.Uuid
import TypedSql.ScalarType
import TypedSql.Cell.Basic

/-! The values of a statement, each with the type it came from. A raw value is a piece of SQL that
stands for itself. -/
namespace TypedSql

open Numeric

inductive Value where
  | null
  | bool (b : Bool)
  | char (c : Char)
  | integer (n : MachineInt .i64)
  | unsigned (n : MachineInt .u64)
  | real (x : Double)
  | text (s : String)
  | blob (bytes : List UInt8)
  | decimal (d : Decimal)
  | dateTime (t : DateTime)
  | uuid (u : Uuid)
  | raw (sql : String)
  deriving DecidableEq, Repr

namespace Value

def kind : Value → String
  | .null => "null"
  | .bool _ => "bool"
  | .char _ => "char"
  | .integer _ => "integer"
  | .unsigned _ => "unsigned"
  | .real _ => "real"
  | .text _ => "text"
  | .blob _ => "blob"
  | .decimal _ => "decimal"
  | .dateTime _ => "datetime"
  | .uuid _ => "uuid"
  | .raw _ => "raw"

def isNull : Value → Bool
  | .null => true
  | _ => false

def isRaw : Value → Bool
  | .raw _ => true
  | _ => false

/-- An integer of any width. All but the widest unsigned ones are signed values. -/
def ofInt : (type : IntType) → MachineInt type → Value
  | .u64, n => .unsigned n
  | .i64, n => .integer n
  | .i8, n | .i16, n | .i32, n | .u8, n | .u16, n | .u32, n =>
    .integer (n.widen (by decide) (by decide))

def ofScalar : (type : ScalarType) → type.Carrier → Value
  | .bool, b => .bool b
  | .int type, n => ofInt type n
  | .single, x => .real (x.convert .double)
  | .double, x => .real x
  | .char, c => .char c
  | .text, s => .text s
  | .bytes, bytes => .blob bytes
  | .decimal, d => .decimal d
  | .dateTime, t => .dateTime t
  | .uuid, u => .uuid u

def ofOptional (type : ScalarType) : Option type.Carrier → Value
  | none => .null
  | some x => ofScalar type x

/-- A date is its midnight. -/
def ofDate (date : Date) : Value := .dateTime (.atMidnight date)

/-- A zoned time is what a clock in the zone shows. -/
def ofZoned? (t : ZonedDateTime) : Option Value := t.local?.map .dateTime

/-- A cell as it is stored, with no other type. -/
def ofCell : Cell → Value
  | .null => .null
  | .integer n => .integer n
  | .real x => .real x
  | .text s => .text s
  | .blob bytes => .blob bytes

/-- Equality of values that counts all NaNs as one, and decimals by quantity. -/
def Same : Value → Value → Prop
  | .real x, .real y => x.Same y
  | .decimal a, .decimal b => a.SameQuantity b
  | a, b => a = b

theorem Same.refl (v : Value) : v.Same v := by
  cases v with
  | real x => exact Or.inl rfl
  | decimal d => exact Decimal.SameQuantity.refl d
  | null | bool | char | integer | unsigned | text | blob | dateTime | uuid | raw => rfl

theorem Same.cases {v w : Value} (same : v.Same w) :
    v = w ∨ (∃ x y, v = .real x ∧ w = .real y ∧ x.Same y) ∨
      ∃ a b, v = .decimal a ∧ w = .decimal b ∧ a.SameQuantity b := by
  unfold Same at same
  split at same
  · exact Or.inr (Or.inl ⟨_, _, rfl, rfl, same⟩)
  · exact Or.inr (Or.inr ⟨_, _, rfl, rfl, same⟩)
  · exact Or.inl same

theorem Same.trans {u v w : Value} (first : u.Same v) (second : v.Same w) : u.Same w := by
  rcases first.cases with rfl | ⟨x, y, rfl, rfl, reals⟩ | ⟨a, b, rfl, rfl, decimals⟩
  · exact second
  · cases w with
    | real z => exact reals.trans second
    | _ => cases second
  · cases w with
    | decimal c => exact decimals.trans second
    | _ => cases second

end Value

end TypedSql
