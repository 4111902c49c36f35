import TypedSql.Decimal.Basic
import TypedSql.Numeric.Binary

/-! Decimal numbers from floating-point ones. A double is a mantissa times a power of two. The power
is traded for powers of ten within 96 bits: two to the minus one is five tenths, two is ten fifths.
What does not fit is dropped, the mantissa is brought down to 52 bits where it has a fraction, and
the zeros at the end of the fraction go.

This stands for the conversion of a double that the library of decimal numbers documents: it keeps
the digits that a double guarantees and removes the excess bits. It has no answer for infinities, for
what is no number, and for a number whose whole part needs more than 96 bits. The steps are those by
which the library gets there, since the digits that are kept depend on them. -/
namespace TypedSql.Decimal

open Numeric

-- Powers of numbers are those of the core library.
attribute [local instance (high)] instPowNat

/-- Trades `steps` halvings for tenths. A halving of an even mantissa is exact; otherwise the
mantissa is multiplied by five, or halved with loss when it would outgrow its bits. The answer holds
the mantissa and the power of ten. -/
def tradeHalves (m : Nat) (tens : Int) : Nat → Nat × Int
  | 0 => (m, tens)
  | steps + 1 =>
    if m % 2 = 0 then tradeHalves (m / 2) (tens + 1) steps
    else if 5 * m < 2 ^ (96 : Nat) then tradeHalves (5 * m) tens steps
    else tradeHalves (m / 2) (tens + 1) steps

/-- Trades `steps` doublings for tens, by doubling the mantissa while its highest bit is free and by
dividing it by five after that. Too large a number has no answer. -/
def tradeDoubles? (m : Nat) (tens : Int) : Nat → Option (Nat × Int)
  | 0 => some (m, tens)
  | steps + 1 =>
    if m < 2 ^ (95 : Nat) then tradeDoubles? (2 * m) (tens - 1) steps
    else if (steps : Int) + 1 < 2 * tens then none
    else tradeDoubles? (m / 5) tens steps

/-- The mantissa times ten for each power of ten that is left, as long as it fits. -/
def absorbTens? (m : Nat) : Nat → Option Nat
  | 0 => some m
  | tens + 1 => if 10 * m < 2 ^ (96 : Nat) then absorbTens? (10 * m) tens else none

/-- Drops fraction digits beyond the most that a number can have, the first argument counting
them. Each digit is rounded away by itself; a mantissa that vanishes is zero without a fraction. -/
def dropExcess : Nat → Nat → Nat → Nat × Nat
  | 0, m, scale => (m, scale)
  | excess + 1, m, scale =>
    if m / 10 = 0 then (0, 0)
    else dropExcess excess (m / 10 + (if 5 ≤ m % 10 then 1 else 0)) (scale - 1)

/-- Drops fraction digits, each rounded away by itself, until the mantissa has 52 bits. -/
def dropSurplus (m : Nat) : Nat → Nat × Nat
  | 0 => (m, 0)
  | scale + 1 =>
    if 2 ^ (52 : Nat) ≤ m then dropSurplus (m / 10 + (if 5 ≤ m % 10 then 1 else 0)) scale
    else (m, scale + 1)

/-- Drops the zeros at the end of the fraction. -/
def dropZeros (m : Nat) : Nat → Nat × Nat
  | 0 => (m, 0)
  | scale + 1 => if m % 10 = 0 then dropZeros (m / 10) scale else (m, scale + 1)

def tradePower? (m : Nat) (e : Int) : Option (Nat × Int) :=
  if e ≤ 0 then some (tradeHalves m e (-e).toNat) else tradeDoubles? m e e.toNat

/-- Mantissa and scale with the power of ten turned into digits. -/
def settle? (m : Nat) (tens : Int) : Option (Nat × Nat) := do
  let whole ← absorbTens? m tens.toNat
  let scale := (-tens).toNat
  let (m₁, scale₁) := dropExcess (scale - maxScale) whole scale
  let (m₂, scale₂) := dropSurplus m₁ scale₁
  some (dropZeros m₂ scale₂)

/-- The decimal number for a double; none for numbers that are not finite or too large. The sign
stays, also on zero. -/
def ofDouble? (x : Double) : Option Decimal :=
  match x.datum with
  | .finite negative m q =>
    if m = 0 then ofParts? negative 0 0
    else do
      let (m₁, tens) ← tradePower? m q
      let (m₂, scale) ← settle? m₁ tens
      ofParts? negative m₂ scale
  | _ => none

end TypedSql.Decimal
