/-! Decimal digits, and integers of a fixed width. A value carries the proof that it lies in the
range of its type, so no operation wraps: a conversion reports on which side of the range a number
lies. The reader takes an optional sign and ASCII digits, and stops at the first fault from the
left. -/
namespace TypedSql.Numeric

/-- The decimal digits of a natural number, without leading zeros. -/
def digits (n : Nat) : List Char := Nat.toDigits 10 n

/-- At least `width` digits, zeros in front where the number has fewer. -/
def paddedDigits (width n : Nat) : List Char :=
  List.replicate (width - (digits n).length) '0' ++ digits n

/-- An integer in decimal, a minus sign before the negative ones. -/
def intText (n : Int) : List Char :=
  if n < 0 then '-' :: digits n.natAbs else digits n.natAbs

def digitsValue (cs : List Char) : Nat := Nat.ofDigitChars 10 cs 0

def digitValue (c : Char) : Nat := c.toNat - '0'.toNat

theorem digitsValue_digits (n : Nat) : digitsValue (digits n) = n :=
  Nat.ofDigitChars_ten_toDigits

theorem isDigit_of_mem_digits {n : Nat} {c : Char} (h : c ∈ digits n) : c.isDigit = true :=
  Nat.isDigit_of_mem_toDigits (by decide) (by decide) h

theorem digits_ne_nil (n : Nat) : digits n ≠ [] := Nat.toDigits_ne_nil

-- Powers of numbers are those of the core library.
attribute [local instance (high)] instPowNat

inductive IntType where
  | i8 | i16 | i32 | i64
  | u8 | u16 | u32 | u64
  deriving DecidableEq, Repr

namespace IntType

def bits : IntType → Nat
  | .i8 | .u8 => 8
  | .i16 | .u16 => 16
  | .i32 | .u32 => 32
  | .i64 | .u64 => 64

def isSigned : IntType → Bool
  | .i8 | .i16 | .i32 | .i64 => true
  | .u8 | .u16 | .u32 | .u64 => false

def name : IntType → String
  | .i8 => "i8" | .i16 => "i16" | .i32 => "i32" | .i64 => "i64"
  | .u8 => "u8" | .u16 => "u16" | .u32 => "u32" | .u64 => "u64"

def least (t : IntType) : Int := if t.isSigned then -2 ^ (t.bits - 1) else 0

def greatest (t : IntType) : Int := if t.isSigned then 2 ^ (t.bits - 1) - 1 else 2 ^ t.bits - 1

theorem least_nonpos (t : IntType) : t.least ≤ 0 := by cases t <;> decide

theorem greatest_nonneg (t : IntType) : 0 ≤ t.greatest := by cases t <;> decide

end IntType

/-- An integer within the range of its type. -/
structure MachineInt (t : IntType) where
  val : Int
  least_le : t.least ≤ val
  le_greatest : val ≤ t.greatest
  deriving DecidableEq, Repr

/-- On which side of a range a number lies. -/
inductive RangeFault where
  | tooLarge
  | tooSmall
  deriving DecidableEq, Repr

def RangeFault.message : RangeFault → String
  | .tooLarge => "number too large to fit in target type"
  | .tooSmall => "number too small to fit in target type"

namespace MachineInt

def ofInt (t : IntType) (n : Int) : Except RangeFault (MachineInt t) :=
  if low : n < t.least then .error .tooSmall
  else if high : t.greatest < n then .error .tooLarge
  else .ok ⟨n, Int.not_lt.mp low, Int.not_lt.mp high⟩

/-- Zero is in every range. -/
def zero (t : IntType) : MachineInt t := ⟨0, t.least_nonpos, t.greatest_nonneg⟩

instance (t : IntType) : Inhabited (MachineInt t) := ⟨zero t⟩

def widen {s t : IntType} (n : MachineInt s) (low : t.least ≤ s.least)
    (high : s.greatest ≤ t.greatest) : MachineInt t :=
  ⟨n.val, Int.le_trans low n.least_le, Int.le_trans n.le_greatest high⟩

theorem ofInt_val {t : IntType} (n : MachineInt t) : ofInt t n.val = .ok n := by
  have low := Int.not_lt.mpr n.least_le
  have high := Int.not_lt.mpr n.le_greatest
  rw [ofInt, dif_neg low, dif_neg high]

theorem ofInt_eq_ok_iff {t : IntType} {n : Int} {m : MachineInt t} :
    ofInt t n = .ok m ↔ m.val = n := by
  constructor
  · intro h
    unfold ofInt at h
    split at h
    · cases h
    · split at h
      · cases h
      · cases h; rfl
  · rintro rfl
    exact ofInt_val m

/-- Every integer that is not too large is a signed one of the widest type. -/
theorem exists_signed {t : IntType} (n : MachineInt t) (le : n.val ≤ IntType.greatest .i64) :
    ∃ m : MachineInt .i64, m.val = n.val ∧ ofInt .i64 n.val = .ok m := by
  have least : IntType.least .i64 ≤ t.least := by cases t <;> decide
  exact ⟨⟨n.val, Int.le_trans least n.least_le, le⟩, rfl, ofInt_eq_ok_iff.mpr rfl⟩

end MachineInt

inductive IntTextFault where
  | empty
  | invalidDigit
  | range (fault : RangeFault)
  deriving DecidableEq, Repr

def IntTextFault.message : IntTextFault → String
  | .empty => "cannot parse integer from empty string"
  | .invalidDigit => "invalid digit found in string"
  | .range fault => fault.message

/-- Reads digits from left to right onto the number read so far. A character that is no digit is
reported before the range is tested; the range is tested at every digit. -/
def accumulateDigits {t : IntType} (negative : Bool) (sofar : MachineInt t) :
    List Char → Except IntTextFault (MachineInt t)
  | [] => .ok sofar
  | c :: rest =>
    if c.isDigit then
      let next := if negative then 10 * sofar.val - digitValue c else 10 * sofar.val + digitValue c
      match MachineInt.ofInt t next with
      | .ok n => accumulateDigits negative n rest
      | .error fault => .error (.range fault)
    else .error .invalidDigit

/-- Reads an integer: one sign at most, a minus for the signed types only, and digits. -/
def readInt (t : IntType) : List Char → Except IntTextFault (MachineInt t)
  | [] => .error .empty
  | ['+'] | ['-'] => .error .invalidDigit
  | '+' :: rest => accumulateDigits false (.zero t) rest
  | '-' :: rest =>
    if t.isSigned then accumulateDigits true (.zero t) rest else .error .invalidDigit
  | cs => accumulateDigits false (.zero t) cs

end TypedSql.Numeric
