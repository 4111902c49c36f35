/-! Binary floating-point numbers as their codes. A code is a sign, a biased exponent and a
fraction; `datum` tells what it denotes, and `ofRatio` is the code nearest to a quotient of natural
numbers, ties to the even code. All of it is arithmetic on natural numbers and integers. -/
namespace TypedSql.Numeric

-- Powers of numbers are those of the core library.
attribute [local instance (high)] instPowNat

/-- The two field widths of an interchange format. -/
structure BinaryFormat where
  fractionBits : Nat
  exponentBits : Nat
  deriving DecidableEq, Repr

namespace BinaryFormat

def double : BinaryFormat := ⟨52, 11⟩

def single : BinaryFormat := ⟨23, 8⟩

/-- The codes of one sign: the number of settings of exponent and fraction together. -/
def signPlace (f : BinaryFormat) : Nat := 2 ^ (f.exponentBits + f.fractionBits)

def fractionCount (f : BinaryFormat) : Nat := 2 ^ f.fractionBits

/-- The unsigned code of infinity; larger ones are codes of NaN. -/
def infinityCode (f : BinaryFormat) : Nat := (2 ^ f.exponentBits - 1) * f.fractionCount

/-- The exponent of the last place of the smallest numbers. -/
def leastExponent (f : BinaryFormat) : Int := 2 - 2 ^ (f.exponentBits - 1) - f.fractionBits

theorem signPlace_pos (f : BinaryFormat) : 0 < f.signPlace := Nat.two_pow_pos _

theorem infinityCode_lt (f : BinaryFormat) : f.infinityCode < f.signPlace := by
  have h : 0 < 2 ^ f.exponentBits := Nat.two_pow_pos _
  rw [infinityCode, signPlace, fractionCount, Nat.pow_add]
  exact Nat.mul_lt_mul_of_pos_right (by omega) (Nat.two_pow_pos _)

end BinaryFormat

/-- A floating-point number, given by its code. The payload of a NaN is part of the code. -/
structure Binary (f : BinaryFormat) where
  code : Nat
  code_lt : code < 2 * f.signPlace
  deriving DecidableEq, Repr

abbrev Double := Binary .double

abbrev Single := Binary .single

/-- What a code denotes; a finite number is `mantissa * 2 ^ exponent`, with its sign. -/
inductive Datum where
  | nan
  | infinite (negative : Bool)
  | finite (negative : Bool) (mantissa : Nat) (exponent : Int)
  deriving DecidableEq, Repr

/-- The nearest natural number to a quotient; of two equally near ones the even. -/
def roundHalfEven (num den : Nat) : Nat :=
  let quotient := num / den
  let twice := 2 * (num % den)
  if twice < den then quotient
  else if den < twice then quotient + 1
  else quotient + quotient % 2

/-- The greatest `k` with `2 ^ k ≤ num / den`, for positive `num` and `den`. -/
def log2Ratio (num den : Nat) : Int :=
  let k : Int := (num.log2 : Int) - den.log2
  if den * 2 ^ k.toNat ≤ num * 2 ^ (-k).toNat then k else k - 1

namespace Binary

variable {f : BinaryFormat}

def ofCode? (f : BinaryFormat) (code : Nat) : Option (Binary f) :=
  if h : code < 2 * f.signPlace then some ⟨code, h⟩ else none

def isNegative (x : Binary f) : Bool := f.signPlace ≤ x.code

def magnitude (x : Binary f) : Nat := x.code % f.signPlace

def datum (x : Binary f) : Datum :=
  let biased := x.magnitude / f.fractionCount
  let fraction := x.magnitude % f.fractionCount
  if f.infinityCode < x.magnitude then .nan
  else if x.magnitude = f.infinityCode then .infinite x.isNegative
  else if biased = 0 then .finite x.isNegative fraction f.leastExponent
  else .finite x.isNegative (f.fractionCount + fraction) (f.leastExponent + (biased - 1 : Nat))

def isNaN (x : Binary f) : Bool := f.infinityCode < x.magnitude

/-- A number from its sign and an unsigned code. -/
def ofMagnitude (negative : Bool) (m : Nat) (h : m < f.signPlace) : Binary f :=
  ⟨if negative then f.signPlace + m else m, by split <;> omega⟩

/-- The quiet NaN with no other payload. -/
def nan (f : BinaryFormat) : Binary f :=
  ofMagnitude false (min (f.infinityCode + f.fractionCount / 2) (f.signPlace - 1))
    (by have := f.signPlace_pos; omega)

def infinity (negative : Bool) : Binary f :=
  ofMagnitude negative f.infinityCode f.infinityCode_lt

/-- The unsigned code nearest to a quotient. The exponent of the last place is that of the leading
bit less the fraction bits, and never below the least one; a quotient beyond the finite numbers
gets the code of infinity. -/
def roundRatio (f : BinaryFormat) (num den : Nat) : Nat :=
  if num = 0 then 0
  else
    let place := max f.leastExponent (log2Ratio num den - f.fractionBits)
    let units := roundHalfEven (num * 2 ^ (-place).toNat) (den * 2 ^ place.toNat)
    min f.infinityCode ((place - f.leastExponent).toNat * f.fractionCount + units)

/-- The number nearest to a quotient, with the given sign. -/
def ofRatio (f : BinaryFormat) (negative : Bool) (num den : Nat) : Binary f :=
  ofMagnitude negative (roundRatio f num den)
    (by
      have := f.infinityCode_lt
      unfold roundRatio
      split
      · exact f.signPlace_pos
      · exact Nat.lt_of_le_of_lt (Nat.min_le_left _ _) this)

def ofInt (f : BinaryFormat) (n : Int) : Binary f := ofRatio f (n < 0) n.natAbs 1

def convert (g : BinaryFormat) (x : Binary f) : Binary g :=
  match x.datum with
  | .nan => nan g
  | .infinite negative => infinity negative
  | .finite negative m q => ofRatio g negative (m * 2 ^ q.toNat) (2 ^ (-q).toNat)

/-- Equality of numbers that counts all NaNs as one. -/
def Same (x y : Binary f) : Prop := x = y ∨ x.isNaN = true ∧ y.isNaN = true

instance (x y : Binary f) : Decidable (Same x y) := inferInstanceAs (Decidable (_ ∨ _))

theorem Same.trans {x y z : Binary f} (first : x.Same y) (second : y.Same z) : x.Same z := by
  rcases first with rfl | ⟨nan, nan'⟩
  · exact second
  · rcases second with rfl | ⟨-, nan''⟩
    · exact Or.inr ⟨nan, nan'⟩
    · exact Or.inr ⟨nan, nan''⟩

/-- Neither zero. NaN counts as nonzero. -/
def isNonzero (x : Binary f) : Bool := x.magnitude != 0

end Binary

namespace Datum

/-- The integer that a finite number is, if it is one. -/
def toInt? : Datum → Option Int
  | .finite negative m q =>
    if 0 ≤ q then
      let n : Int := m * 2 ^ q.toNat
      some (if negative then -n else n)
    else if m % 2 ^ (-q).toNat = 0 then
      let n : Int := (m / 2 ^ (-q).toNat : Nat)
      some (if negative then -n else n)
    else none
  | _ => none

end Datum

end TypedSql.Numeric
