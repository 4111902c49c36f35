import Mathlib.Algebra.Order.Field.Rat
import Mathlib.Tactic.FieldSimp
import Mathlib.Tactic.Positivity
import TypedSql.Numeric.MachineInt
import TypedSql.Proofs.Numeric.Digits

/-! Integers that are read exactly: from text, where the digits of a numeral are its number whatever
zeros stand in front, and from a floating-point number, whose value is the integer or no integer at
all. -/
namespace TypedSql.Numeric

-- Powers of numbers are those of the core library.
attribute [local instance (high)] instPowNat

section Text

variable {t : IntType} {n : MachineInt t} {cs : List Char}

/-- How an integer may be written for a type: digits, and a sign in front of them if any, which for
an unsigned type is no minus. -/
inductive IntType.IsNumeral (t : IntType) : List Char → ℤ → Prop
  | plain {digits : List Char} (nonempty : digits ≠ []) (all : ∀ c ∈ digits, c.isDigit = true) :
      t.IsNumeral digits (digitsValue digits)
  | plus {digits : List Char} (nonempty : digits ≠ []) (all : ∀ c ∈ digits, c.isDigit = true) :
      t.IsNumeral ('+' :: digits) (digitsValue digits)
  | minus {digits : List Char} (signed : t.isSigned = true) (nonempty : digits ≠ [])
      (all : ∀ c ∈ digits, c.isDigit = true) : t.IsNumeral ('-' :: digits) (-digitsValue digits)

theorem MachineInt.val_inj {m n : MachineInt t} : m.val = n.val ↔ m = n := by
  cases m
  cases n
  rw [MachineInt.mk.injEq]

theorem MachineInt.exists_ofInt_eq_ok {k : ℤ} (low : t.least ≤ k) (high : k ≤ t.greatest) :
    ∃ m, ofInt t k = .ok m :=
  ⟨⟨k, low, high⟩, ofInt_eq_ok_iff.mpr rfl⟩

/-- A number with the sign of what is read. -/
def signed (negative : Bool) (k : ℕ) : ℤ := if negative then -k else k

theorem signed_accumulate (negative : Bool) (k d : ℕ) :
    (if negative then 10 * signed negative k - d else 10 * signed negative k + d) =
      signed negative (10 * k + d) := by
  cases negative
  · simp [signed]
  · simp only [signed, if_true]
    omega

/-- What lies between zero and a number of a type is in the range of the type. -/
theorem MachineInt.exists_ofInt_signed {negative : Bool} {k l : ℕ} (le : k ≤ l)
    (within : n.val = signed negative l) : ∃ m, ofInt t (signed negative k) = .ok m := by
  have least := t.least_nonpos
  have greatest := t.greatest_nonneg
  have low := n.least_le
  have high := n.le_greatest
  cases negative <;> simp only [signed, if_true, Bool.false_eq_true, if_false] at within ⊢ <;>
    exact exists_ofInt_eq_ok (by omega) (by omega)

/-- The range is tested at every digit, and a number that passes the last test passes them all. -/
theorem accumulateDigits_eq_ok_iff {negative : Bool} {sofar : MachineInt t} {k : ℕ}
    (start : sofar.val = signed negative k) :
    accumulateDigits negative sofar cs = .ok n ↔
      (∀ c ∈ cs, c.isDigit = true) ∧ n.val = signed negative (Nat.ofDigitChars 10 cs k) := by
  induction cs generalizing sofar k with
  | nil =>
    rw [accumulateDigits, Except.ok.injEq, ← MachineInt.val_inj, start, Nat.ofDigitChars_nil, eq_comm]
    exact ⟨fun same => ⟨List.forall_mem_nil _, same⟩, And.right⟩
  | cons c cs ih =>
    rw [accumulateDigits, List.forall_mem_cons, ofDigitChars_cons]
    by_cases digit : c.isDigit = true
    · simp only [digit, if_true, start, signed_accumulate, true_and]
      cases next : MachineInt.ofInt t (signed negative (10 * k + digitValue c)) with
      | ok m => exact ih (MachineInt.ofInt_eq_ok_iff.mp next)
      | error fault =>
        refine ⟨nofun, fun ⟨_, within⟩ => ?_⟩
        obtain ⟨m, passed⟩ := MachineInt.exists_ofInt_signed (le_ofDigitChars cs _) within
        rw [next] at passed
        cases passed
    · simp [digit]

theorem accumulateDigits_zero_eq_ok_iff {negative : Bool} :
    accumulateDigits negative (.zero t) cs = .ok n ↔
      (∀ c ∈ cs, c.isDigit = true) ∧ n.val = signed negative (digitsValue cs) := by
  apply accumulateDigits_eq_ok_iff
  cases negative <;> rfl

theorem readInt_of_isDigit {c : Char} (digit : c.isDigit = true) :
    readInt t (c :: cs) = accumulateDigits false (.zero t) (c :: cs) := by
  have plus : c ≠ '+' := by
    rintro rfl
    contradiction
  have minus : c ≠ '-' := by
    rintro rfl
    contradiction
  unfold readInt
  split
  case h_2 | h_3 => cases ‹_ :: _ = _›; contradiction
  all_goals simp_all

/-- An integer is read from the numerals of its type, and from nothing else. -/
theorem readInt_eq_ok_iff : readInt t cs = .ok n ↔ t.IsNumeral cs n.val := by
  constructor
  · intro read
    unfold readInt at read
    split at read
    case h_1 | h_2 | h_3 => cases read
    case h_4 digits nonempty =>
      obtain ⟨all, value⟩ := accumulateDigits_zero_eq_ok_iff.mp read
      rw [value]
      exact .plus (fun none => nonempty (by rw [none])) all
    case h_5 digits nonempty =>
      split at read
      case isTrue signed =>
        obtain ⟨all, value⟩ := accumulateDigits_zero_eq_ok_iff.mp read
        rw [value]
        exact .minus signed (fun none => nonempty (by rw [none])) all
      case isFalse => cases read
    case h_6 nonempty _ _ _ _ =>
      obtain ⟨all, value⟩ := accumulateDigits_zero_eq_ok_iff.mp read
      rw [value]
      exact .plain nonempty all
  · intro numeral
    generalize value : n.val = k at numeral
    cases numeral with
    | plain nonempty all =>
      obtain ⟨c, cs, rfl⟩ := List.exists_cons_of_ne_nil nonempty
      rw [readInt_of_isDigit (all c List.mem_cons_self)]
      exact accumulateDigits_zero_eq_ok_iff.mpr ⟨all, value⟩
    | plus nonempty all =>
      obtain ⟨c, cs, rfl⟩ := List.exists_cons_of_ne_nil nonempty
      exact accumulateDigits_zero_eq_ok_iff.mpr ⟨all, value⟩
    | minus signed nonempty all =>
      obtain ⟨c, cs, rfl⟩ := List.exists_cons_of_ne_nil nonempty
      rw [readInt, if_pos signed]
      · exact accumulateDigits_zero_eq_ok_iff.mpr ⟨all, value⟩
      · exact nonempty

end Text

section Reals

/-- The number that is denoted, exactly. What is not finite denotes none. -/
def Datum.value? : Datum → Option ℚ
  | .finite negative m q => some (if negative then -(m * 2 ^ q) else m * 2 ^ q)
  | _ => none

/-- A number is an integer multiple of a power of two if its remainder by the power is zero. -/
theorem natCast_eq_mul_iff {m k : ℕ} {n : ℤ} (pos : 0 < k) :
    (m : ℤ) = n * k ↔ m % k = 0 ∧ ((m / k : ℕ) : ℤ) = n := by
  constructor
  · intro same
    have natural : 0 ≤ n := by
      by_contra negative
      have less : n * k < 0 := Int.mul_neg_of_neg_of_pos (by omega) (by exact_mod_cast pos)
      omega
    obtain ⟨j, rfl⟩ := Int.eq_ofNat_of_zero_le natural
    obtain rfl : m = j * k := by exact_mod_cast same
    rw [Nat.mul_mod_left, Nat.mul_div_cancel _ pos]
    exact ⟨rfl, rfl⟩
  · rintro ⟨divides, rfl⟩
    exact_mod_cast (Nat.div_mul_cancel (Nat.dvd_of_mod_eq_zero divides)).symm

/-- Whether a number times a power of two is a given integer, without fractions. -/
theorem mul_zpow_eq_iff (m : ℕ) (q n : ℤ) :
    (m : ℚ) * 2 ^ q = n ↔ (m : ℤ) * 2 ^ q.toNat = n * 2 ^ (-q).toNat := by
  have pos : (0 : ℚ) < 2 ^ (-q).toNat := by positivity
  have power : (2 : ℚ) ^ q * 2 ^ (-q).toNat = 2 ^ q.toNat := by
    rw [← zpow_natCast, ← zpow_natCast, ← zpow_add₀ two_ne_zero]
    congr 1
    omega
  rw [← mul_left_inj' pos.ne', mul_assoc, power]
  exact_mod_cast Iff.rfl

/-- A finite number is taken for an integer if and only if it is one. -/
theorem Datum.toInt?_eq_some_iff {d : Datum} {n : ℤ} :
    d.toInt? = some n ↔ d.value? = some (n : ℚ) := by
  cases d with
  | nan | infinite => exact ⟨nofun, nofun⟩
  | finite negative m q =>
    have size : ∀ k : ℤ, (m : ℚ) * 2 ^ q = k ↔
        if 0 ≤ q then (m : ℤ) * 2 ^ q.toNat = k
        else m % 2 ^ (-q).toNat = 0 ∧ ((m / 2 ^ (-q).toNat : ℕ) : ℤ) = k := by
      intro k
      rw [mul_zpow_eq_iff]
      split
      case isTrue whole => simp [Int.toNat_of_nonpos (neg_nonpos.mpr whole)]
      case isFalse fraction =>
        have none : q.toNat = 0 := Int.toNat_of_nonpos (not_le.mp fraction).le
        have divides := natCast_eq_mul_iff (m := m) (n := k) (Nat.two_pow_pos (-q).toNat)
        rw [none, pow_zero, mul_one, ← divides]
        simp
    cases negative with
    | false =>
      simp only [toInt?, value?, Bool.false_eq_true, if_false, Option.some.injEq, size n]
      split <;> simp
    | true =>
      simp only [toInt?, value?, if_true, Option.some.injEq, neg_eq_iff_eq_neg]
      have opposite := size (-n)
      rw [Int.cast_neg] at opposite
      rw [opposite]
      split <;> simp [neg_eq_iff_eq_neg]

end Reals

end TypedSql.Numeric
