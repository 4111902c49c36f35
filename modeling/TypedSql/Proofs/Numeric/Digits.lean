import TypedSql.Numeric.FloatText
import TypedSql.Decimal.Basic

/-! What runs of decimal digits denote: parts of a run, padding, and zeros at the end; and the sign in
front of a run. -/
namespace TypedSql.Numeric

-- Powers of numbers are those of the core library.
attribute [local instance (high)] instPowNat

theorem digitsValue_append (cs ds : List Char) :
    digitsValue (cs ++ ds) = digitsValue cs * 10 ^ ds.length + digitsValue ds := by
  rw [digitsValue, Nat.ofDigitChars_append, Nat.ofDigitChars_eq_ofDigitChars_zero, Nat.mul_comm]
  rfl

theorem digitsValue_replicate_zero (n : Nat) : digitsValue (List.replicate n '0') = 0 := by
  rw [digitsValue, Nat.ofDigitChars_replicate_zero, Nat.mul_zero]

theorem digitsValue_paddedDigits (width n : Nat) : digitsValue (paddedDigits width n) = n := by
  rw [paddedDigits, digitsValue_append, digitsValue_replicate_zero, digitsValue_digits, Nat.zero_mul,
    Nat.zero_add]

theorem isDigit_of_mem_paddedDigits {width n : Nat} {c : Char} (h : c ∈ paddedDigits width n) :
    c.isDigit = true := by
  rcases List.mem_append.mp h with zero | digit
  · rw [List.eq_of_mem_replicate zero]
    decide
  · exact isDigit_of_mem_digits digit

theorem exists_paddedDigits_eq_cons (width n : Nat) :
    ∃ c cs, paddedDigits width n = c :: cs ∧ c.isDigit = true := by
  cases written : paddedDigits width n with
  | nil => exact absurd (List.append_eq_nil_iff.mp written).2 (digits_ne_nil n)
  | cons c cs => exact ⟨c, cs, rfl, isDigit_of_mem_paddedDigits (written ▸ List.mem_cons_self)⟩

theorem paddedDigits_ne_nil (width n : Nat) : paddedDigits width n ≠ [] := by
  obtain ⟨c, cs, written, -⟩ := exists_paddedDigits_eq_cons width n
  exact written ▸ List.cons_ne_nil c cs

theorem length_digits_le_iff {n width : Nat} (pos : 0 < width) :
    (digits n).length ≤ width ↔ n < 10 ^ width :=
  Nat.length_toDigits_le_iff (by decide) pos

theorem length_paddedDigits {width n : Nat} (pos : 0 < width) (lt : n < 10 ^ width) :
    (paddedDigits width n).length = width := by
  have le := (length_digits_le_iff pos).mpr lt
  rw [paddedDigits, List.length_append, List.length_replicate]
  omega

/-- The whole part and the fraction of a number give its digits. -/
theorem digitsValue_parts {scale n : Nat} (pos : 0 < scale) :
    digitsValue (digits (n / 10 ^ scale) ++ paddedDigits scale (n % 10 ^ scale)) = n := by
  have lt : n % 10 ^ scale < 10 ^ scale := Nat.mod_lt n (Nat.pow_pos (by decide))
  rw [digitsValue_append, digitsValue_digits, digitsValue_paddedDigits,
    length_paddedDigits pos lt, Nat.mul_comm]
  exact Nat.div_add_mod n (10 ^ scale)

/-- Zeros at the end of a run only multiply it by a power of ten. -/
theorem dropTrailingZeros_append (cs : List Char) :
    ∃ n, dropTrailingZeros cs ++ List.replicate n '0' = cs := by
  refine ⟨(cs.reverse.takeWhile (· == '0')).length, ?_⟩
  have zeros : cs.reverse.takeWhile (· == '0') =
      List.replicate (cs.reverse.takeWhile (· == '0')).length '0' :=
    List.eq_replicate_of_mem fun c member => by
      simpa using List.all_eq_true.mp List.all_takeWhile c member
  rw [dropTrailingZeros, ← List.reverse_replicate, ← zeros, ← List.reverse_append,
    List.takeWhile_append_dropWhile, List.reverse_reverse]

theorem isDigit_of_mem_dropTrailingZeros {cs : List Char} (digits : ∀ c ∈ cs, c.isDigit = true) :
    ∀ c ∈ dropTrailingZeros cs, c.isDigit = true := by
  obtain ⟨n, split⟩ := dropTrailingZeros_append cs
  intro c member
  exact digits c (split ▸ List.mem_append_left _ member)

theorem ofDigitChars_cons (c : Char) (cs : List Char) (n : Nat) :
    Nat.ofDigitChars 10 (c :: cs) n = Nat.ofDigitChars 10 cs (10 * n + digitValue c) :=
  Nat.ofDigitChars_cons

/-- Reading digits behind a number does not make it smaller. -/
theorem le_ofDigitChars (cs : List Char) (n : Nat) : n ≤ Nat.ofDigitChars 10 cs n := by
  rw [Nat.ofDigitChars_eq_ofDigitChars_zero]
  have grows : 1 * n ≤ 10 ^ cs.length * n := Nat.mul_le_mul_right n (Nat.pow_pos (by decide))
  omega

theorem splitSign_of_isDigit {c : Char} {cs : List Char} (digit : c.isDigit = true) :
    splitSign (c :: cs) = (false, c :: cs) := by
  unfold splitSign
  split
  case h_1 same =>
    cases same
    exact absurd digit (by decide)
  case h_2 same =>
    cases same
    exact absurd digit (by decide)
  case h_3 => rfl

/-- The sign of a number is split off from its digits. -/
theorem splitSign_append (negative : Bool) {whole : List Char} (rest : List Char)
    (nonempty : whole ≠ []) (digits : ∀ c ∈ whole, c.isDigit = true) :
    splitSign ((if negative then ['-'] else []) ++ (whole ++ rest)) = (negative, whole ++ rest) := by
  cases negative with
  | true => rfl
  | false =>
    cases whole with
    | nil => exact absurd rfl nonempty
    | cons c whole => exact splitSign_of_isDigit (digits c List.mem_cons_self)

end TypedSql.Numeric
