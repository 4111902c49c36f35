import TypedSql.Numeric.MachineInt

/-! Decimal numbers with an explicit scale. A number is a sign, a mantissa of at most 96 bits and a
count of at most 28 fraction digits; the scale is part of the number, so `1.0` and `1.00` differ as
representations though they are the same quantity. -/
namespace TypedSql

-- Powers of numbers are those of the core library.
attribute [local instance (high)] instPowNat

/-- `mantissa / 10 ^ scale`, with a sign that zero may carry as well. -/
structure Decimal where
  negative : Bool
  mantissa : Nat
  scale : Nat
  mantissa_lt : mantissa < 2 ^ (96 : Nat)
  scale_le : scale ≤ 28
  deriving DecidableEq, Repr

namespace Decimal

open Numeric

def maxScale : Nat := 28

def ofParts? (negative : Bool) (mantissa scale : Nat) : Option Decimal :=
  if h : mantissa < 2 ^ (96 : Nat) ∧ scale ≤ 28 then some ⟨negative, mantissa, scale, h.1, h.2⟩
  else none

/-- The number with a signed mantissa; zero is not negative. -/
def ofMantissa? (mantissa : Int) (scale : Nat) : Option Decimal :=
  ofParts? (mantissa < 0) mantissa.natAbs scale

/-- The characters of the number: a sign, the whole part, and exactly `scale` fraction digits. -/
def chars (d : Decimal) : List Char :=
  let whole := digits (d.mantissa / 10 ^ d.scale)
  let fraction := paddedDigits d.scale (d.mantissa % 10 ^ d.scale)
  (if d.negative then ['-'] else []) ++ whole ++
    (if d.scale = 0 then [] else '.' :: fraction)

def text (d : Decimal) : String := String.ofList d.chars

/-- Equality as quantities: neither the scale nor the sign of zero counts. -/
def SameQuantity (a b : Decimal) : Prop :=
  a.mantissa * 10 ^ b.scale = b.mantissa * 10 ^ a.scale ∧
    (a.negative = b.negative ∨ a.mantissa = 0)

instance (a b : Decimal) : Decidable (SameQuantity a b) := inferInstanceAs (Decidable (_ ∧ _))

theorem SameQuantity.refl (a : Decimal) : a.SameQuantity a := ⟨rfl, Or.inl rfl⟩

theorem SameQuantity.mantissa_eq_zero {a b : Decimal} (same : a.SameQuantity b)
    (zero : b.mantissa = 0) : a.mantissa = 0 := by
  have product : a.mantissa * 10 ^ b.scale = 0 := by
    rw [same.1, zero, Nat.zero_mul]
  exact (Nat.mul_eq_zero.mp product).resolve_right (Nat.ne_of_gt (Nat.pow_pos (by decide)))

theorem SameQuantity.trans {a b c : Decimal} (first : a.SameQuantity b)
    (second : b.SameQuantity c) : a.SameQuantity c := by
  constructor
  · have pos : 0 < 10 ^ b.scale := Nat.pow_pos (by decide)
    apply Nat.eq_of_mul_eq_mul_right pos
    calc a.mantissa * 10 ^ c.scale * 10 ^ b.scale
        = a.mantissa * 10 ^ b.scale * 10 ^ c.scale := Nat.mul_right_comm _ _ _
      _ = b.mantissa * 10 ^ c.scale * 10 ^ a.scale := by rw [first.1, Nat.mul_right_comm]
      _ = c.mantissa * 10 ^ a.scale * 10 ^ b.scale := by rw [second.1, Nat.mul_right_comm]
  · rcases first.2 with sign | zero
    · rcases second.2 with sign' | zero
      · exact Or.inl (sign.trans sign')
      · exact Or.inr (first.mantissa_eq_zero zero)
    · exact Or.inr zero

theorem ofParts?_self (d : Decimal) : ofParts? d.negative d.mantissa d.scale = some d := by
  rw [ofParts?, dif_pos ⟨d.mantissa_lt, d.scale_le⟩]

end Decimal

end TypedSql
