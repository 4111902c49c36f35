import TypedSql.Decimal.Reader
import TypedSql.Proofs.Numeric.Digits
import TypedSql.Text.Blank

/-! A decimal number is read back from its own text. No digit is lost on the way, since the digits
read so far never exceed the mantissa; only a zero comes back without its sign. -/
namespace TypedSql.Decimal

open Numeric Text

-- Powers of numbers are those of the core library.
attribute [local instance (high)] instPowNat

/-- The number itself, but a zero without a sign. -/
def withoutSignOfZero (d : Decimal) : Decimal :=
  { d with negative := d.negative && d.mantissa != 0 }

theorem sameQuantity_withoutSignOfZero (d : Decimal) : d.SameQuantity d.withoutSignOfZero := by
  refine ⟨rfl, ?_⟩
  by_cases zero : d.mantissa = 0
  · exact Or.inr zero
  · exact Or.inl (by simp [withoutSignOfZero, zero])

theorem ofReading?_parts (d : Decimal) :
    ofReading? d.negative d.mantissa d.scale = some d.withoutSignOfZero :=
  ofParts?_self d.withoutSignOfZero

variable {negative seen : Bool} {m scale : Nat} {rest : List Char}

section Digits

variable {c : Char} (digit : c.isDigit = true)

include digit in
theorem readWhole?_digit (fits : 10 * m + digitValue c < 2 ^ (96 : Nat)) :
    readWhole? negative m seen (c :: rest) =
      readWhole? negative (10 * m + digitValue c) true rest := by
  rw [readWhole?, if_pos digit]
  exact if_pos fits

include digit in
theorem readFraction?_digit (fits : 10 * m + digitValue c < 2 ^ (96 : Nat))
    (room : scale < maxScale) :
    readFraction? negative m scale seen (c :: rest) =
      readFraction? negative (10 * m + digitValue c) (scale + 1) true rest := by
  rw [readFraction?, if_neg (Nat.ne_of_lt room), if_pos digit]
  exact if_pos fits

end Digits

/-- A run of digits is read onto the number in front of it, as long as the number fits. -/
theorem readWhole?_append {ds : List Char} (digits : ∀ c ∈ ds, c.isDigit = true)
    (fits : Nat.ofDigitChars 10 ds m < 2 ^ (96 : Nat)) :
    readWhole? negative m seen (ds ++ rest) =
      readWhole? negative (Nat.ofDigitChars 10 ds m) (seen || !ds.isEmpty) rest := by
  induction ds generalizing m seen with
  | nil => rw [List.nil_append, List.isEmpty_nil, Bool.not_true, Bool.or_false]; rfl
  | cons c ds ih =>
    rw [List.forall_mem_cons] at digits
    rw [ofDigitChars_cons] at fits
    have next : 10 * m + digitValue c < 2 ^ (96 : Nat) :=
      Nat.lt_of_le_of_lt (le_ofDigitChars ds _) fits
    rw [List.cons_append, readWhole?_digit digits.1 next, ih digits.2 fits, ofDigitChars_cons,
      List.isEmpty_cons, Bool.not_false, Bool.or_true, Bool.true_or]

/-- Fraction digits count as well. -/
theorem readFraction?_append {ds : List Char} (digits : ∀ c ∈ ds, c.isDigit = true)
    (fits : Nat.ofDigitChars 10 ds m < 2 ^ (96 : Nat)) (room : scale + ds.length ≤ maxScale) :
    readFraction? negative m scale seen (ds ++ rest) =
      readFraction? negative (Nat.ofDigitChars 10 ds m) (scale + ds.length) (seen || !ds.isEmpty)
        rest := by
  induction ds generalizing m scale seen with
  | nil => rw [List.nil_append, List.isEmpty_nil, Bool.not_true, Bool.or_false]; rfl
  | cons c ds ih =>
    rw [List.forall_mem_cons] at digits
    rw [ofDigitChars_cons] at fits
    rw [List.length_cons, Nat.add_comm ds.length, ← Nat.add_assoc] at room
    have next : 10 * m + digitValue c < 2 ^ (96 : Nat) :=
      Nat.lt_of_le_of_lt (le_ofDigitChars ds _) fits
    have free : scale < maxScale := by omega
    rw [List.cons_append, readFraction?_digit digits.1 next free, ih digits.2 fits room,
      ofDigitChars_cons, List.isEmpty_cons, Bool.not_false, Bool.or_true, Bool.true_or,
      List.length_cons, Nat.add_comm ds.length, ← Nat.add_assoc]

theorem readPlain?_eq (cs : List Char) :
    readPlain? cs = readWhole? (splitSign cs).1 0 false (splitSign cs).2 := by
  unfold splitSign
  split
  case h_1 => rfl
  case h_2 => rfl
  case h_3 minus plus =>
    unfold readPlain?
    split
    case h_1 rest => exact absurd rfl (minus rest)
    case h_2 rest => exact absurd rfl (plus rest)
    case h_3 => rfl

section Chars

variable (d : Decimal)

def wholeChars : List Char := digits (d.mantissa / 10 ^ d.scale)

def fractionChars : List Char := paddedDigits d.scale (d.mantissa % 10 ^ d.scale)

theorem wholeChars_ne_nil : d.wholeChars ≠ [] := digits_ne_nil _

theorem isDigit_of_mem_wholeChars : ∀ c ∈ d.wholeChars, c.isDigit = true :=
  fun _ member => isDigit_of_mem_digits member

theorem isDigit_of_mem_fractionChars : ∀ c ∈ d.fractionChars, c.isDigit = true :=
  fun _ member => isDigit_of_mem_paddedDigits member

theorem ofDigitChars_wholeChars :
    Nat.ofDigitChars 10 d.wholeChars 0 = d.mantissa / 10 ^ d.scale :=
  digitsValue_digits _

theorem ofDigitChars_fractionChars (pos : 0 < d.scale) :
    Nat.ofDigitChars 10 d.fractionChars (d.mantissa / 10 ^ d.scale) = d.mantissa := by
  rw [← ofDigitChars_wholeChars, ← Nat.ofDigitChars_append]
  exact digitsValue_parts pos

theorem length_fractionChars (pos : 0 < d.scale) : d.fractionChars.length = d.scale :=
  length_paddedDigits pos (Nat.mod_lt _ (Nat.pow_pos (by decide)))

theorem chars_eq : d.chars = (if d.negative then ['-'] else []) ++
    (d.wholeChars ++ if d.scale = 0 then [] else '.' :: d.fractionChars) := by
  rw [chars, List.append_assoc]
  rfl

theorem eq_sign_or_point_of_mem_chars : ∀ c ∈ d.chars, c.isDigit = true ∨ c = '-' ∨ c = '.' := by
  intro c member
  rw [chars_eq, List.mem_append, List.mem_append] at member
  rcases member with sign | whole | fraction
  · split at sign
    · exact Or.inr (Or.inl (List.mem_singleton.mp sign))
    · cases sign
  · exact Or.inl (d.isDigit_of_mem_wholeChars c whole)
  · split at fraction
    · cases fraction
    · rcases List.mem_cons.mp fraction with point | digit
      · exact Or.inr (Or.inr point)
      · exact Or.inl (d.isDigit_of_mem_fractionChars c digit)

theorem isBlank_of_mem_chars : ∀ c ∈ d.chars, isBlank c = false := by
  intro c member
  rcases d.eq_sign_or_point_of_mem_chars c member with digit | rfl | rfl
  · exact isBlank_of_isDigit digit
  · decide
  · decide

theorem readWhole?_chars :
    readWhole? d.negative 0 false
        (d.wholeChars ++ if d.scale = 0 then [] else '.' :: d.fractionChars) =
      ofReading? d.negative d.mantissa d.scale := by
  have nonempty : d.wholeChars.isEmpty = false := List.isEmpty_eq_false_iff.mpr d.wholeChars_ne_nil
  have whole : Nat.ofDigitChars 10 d.wholeChars 0 < 2 ^ (96 : Nat) := by
    rw [ofDigitChars_wholeChars]
    exact Nat.lt_of_le_of_lt (Nat.div_le_self _ _) d.mantissa_lt
  rw [readWhole?_append d.isDigit_of_mem_wholeChars whole, ofDigitChars_wholeChars, nonempty]
  by_cases integer : d.scale = 0
  · rw [if_pos integer, integer, Nat.pow_zero, Nat.div_one]
    rfl
  · have pos : 0 < d.scale := Nat.pos_of_ne_zero integer
    have fits : Nat.ofDigitChars 10 d.fractionChars (d.mantissa / 10 ^ d.scale) <
        2 ^ (96 : Nat) := by
      rw [ofDigitChars_fractionChars d pos]
      exact d.mantissa_lt
    have point : ∀ n cs, readWhole? d.negative n true ('.' :: cs) =
        readFraction? d.negative n 0 true cs := fun _ _ => rfl
    have room : 0 + d.fractionChars.length ≤ maxScale := by
      rw [length_fractionChars d pos, Nat.zero_add]
      exact d.scale_le
    have fraction : readFraction? d.negative (d.mantissa / 10 ^ d.scale) 0 true
        (d.fractionChars ++ []) = _ :=
      readFraction?_append d.isDigit_of_mem_fractionChars fits room
    rw [ofDigitChars_fractionChars d pos, length_fractionChars d pos, List.append_nil,
      Nat.zero_add] at fraction
    rw [if_neg integer, Bool.not_false, Bool.or_true, point, fraction]
    rfl

/-- The text of a number is read as the number. -/
theorem read?_chars : read? d.chars = some d.withoutSignOfZero := by
  have plain : readPlain? d.chars = some d.withoutSignOfZero := by
    rw [readPlain?_eq, chars_eq,
      splitSign_append d.negative _ d.wholeChars_ne_nil d.isDigit_of_mem_wholeChars]
    exact (readWhole?_chars d).trans (ofReading?_parts d)
  rw [read?, plain]

theorem trimBlanks_chars : trimBlanks d.chars = d.chars :=
  trimBoth_of_forall d.isBlank_of_mem_chars

end Chars

end TypedSql.Decimal
