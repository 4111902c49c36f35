import Mathlib.Data.String.Basic
import TypedSql.Text.Utf8

/-! The byte sequences that spell one character each. They are given by a range for each byte, and
they are exactly the encodings of the characters. Whether some bytes begin an encoding is then a
matter of the same ranges. -/
namespace TypedSql.Text.Utf8

open String (utf8EncodeChar)

inductive IsSequence : List UInt8 → Prop
  | one {a : UInt8} (lead : a.toNat < 0x80) : IsSequence [a]
  | two {a b : UInt8} (lead : 0xC2 ≤ a.toNat ∧ a.toNat ≤ 0xDF)
      (second : isContinuation b.toNat = true) : IsSequence [a, b]
  | three {a b c : UInt8} (lead : 0xE0 ≤ a.toNat ∧ a.toNat ≤ 0xEF)
      (second : admitsSecond a.toNat b.toNat = true) (third : isContinuation c.toNat = true) :
      IsSequence [a, b, c]
  | four {a b c d : UInt8} (lead : 0xF0 ≤ a.toNat ∧ a.toNat ≤ 0xF4)
      (second : admitsSecond a.toNat b.toNat = true) (third : isContinuation c.toNat = true)
      (fourth : isContinuation d.toNat = true) : IsSequence [a, b, c, d]

theorem isContinuation_iff {n : Nat} : isContinuation n = true ↔ 0x80 ≤ n ∧ n ≤ 0xBF := by
  simp [isContinuation]

theorem admitsSecond_iff {lead n : Nat} :
    admitsSecond lead n = true ↔
      (0x80 ≤ n ∧ n ≤ 0xBF) ∧ (lead = 0xE0 → 0xA0 ≤ n) ∧ (lead = 0xED → n ≤ 0x9F) ∧
        (lead = 0xF0 → 0x90 ≤ n) ∧ (lead = 0xF4 → n ≤ 0x8F) := by
  unfold admitsSecond isContinuation
  split_ifs <;> simp <;> omega

section Encodings

variable {bytes : List UInt8} {c d : Char}

/-- The ranges leave nothing out: a scalar value is no surrogate and not beyond the last code point,
so its second byte is one that the lead byte admits. -/
theorem isSequence_encode (c : Char) : IsSequence (utf8EncodeChar c) := by
  have valid := c.valid
  simp only [UInt32.isValidChar, Nat.isValidChar] at valid
  unfold utf8EncodeChar
  extract_lets v
  split_ifs with one two three
  · exact .one (by simp only [UInt8.toNat_ofNat']; omega)
  · refine .two ?_ (isContinuation_iff.mpr ?_) <;> simp only [UInt8.toNat_ofNat'] <;> omega
  · refine .three ?_ (admitsSecond_iff.mpr ?_) (isContinuation_iff.mpr ?_) <;>
      simp only [UInt8.toNat_ofNat'] <;> omega
  · refine .four ?_ (admitsSecond_iff.mpr ?_) (isContinuation_iff.mpr ?_)
      (isContinuation_iff.mpr ?_) <;> simp only [UInt8.toNat_ofNat'] <;> omega

/-- The number that a sequence spells. -/
def spelt : List UInt8 → Nat
  | [a] => a.toNat
  | [a, b] => a.toNat % 32 * 64 + payload b.toNat
  | [a, b, c] => a.toNat % 16 * 4096 + payload b.toNat * 64 + payload c.toNat
  | [a, b, c, d] =>
    a.toNat % 8 * 262144 + payload b.toNat * 4096 + payload c.toNat * 64 + payload d.toNat
  | _ => 0

theorem val_ofNat {n : Nat} (valid : n.isValidChar) : (Char.ofNat n).val.toNat = n := by
  rw [Char.ofNat, dif_pos valid]
  rfl

/-- The ranges admit nothing else: the number is valid, and its encoding is of the same length. -/
theorem encode_spelt (sequence : IsSequence bytes) :
    utf8EncodeChar (Char.ofNat (spelt bytes)) = bytes := by
  -- The number gets a name in each case, for its bounds follow from its digits once, by omega.
  cases sequence with
  | @one a lead =>
    obtain ⟨v, number⟩ : ∃ v, v = a.toNat := ⟨_, rfl⟩
    rw [spelt, ← number, utf8EncodeChar, val_ofNat (by simp only [Nat.isValidChar]; omega),
      if_pos (by omega)]
    simp only [List.cons.injEq, UInt8.ofNat_eq_iff_mod_eq_toNat, and_true]
    omega
  | @two a b lead second =>
    rw [isContinuation_iff] at second
    obtain ⟨v, number⟩ : ∃ v, v = a.toNat % 32 * 64 + b.toNat % 64 := ⟨_, rfl⟩
    rw [spelt, payload, ← number, utf8EncodeChar,
      val_ofNat (by simp only [Nat.isValidChar]; omega), if_neg (by omega), if_pos (by omega)]
    simp only [List.cons.injEq, UInt8.ofNat_eq_iff_mod_eq_toNat, and_true]
    omega
  | @three a b c lead second third =>
    rw [admitsSecond_iff] at second
    rw [isContinuation_iff] at third
    obtain ⟨v, number⟩ : ∃ v, v = a.toNat % 16 * 4096 + b.toNat % 64 * 64 + c.toNat % 64 :=
      ⟨_, rfl⟩
    rw [spelt, payload, payload, ← number, utf8EncodeChar,
      val_ofNat (by simp only [Nat.isValidChar]; omega), if_neg (by omega), if_neg (by omega),
      if_pos (by omega)]
    simp only [List.cons.injEq, UInt8.ofNat_eq_iff_mod_eq_toNat, and_true]
    omega
  | @four a b c d lead second third fourth =>
    rw [admitsSecond_iff] at second
    rw [isContinuation_iff] at third fourth
    obtain ⟨v, number⟩ : ∃ v, v = a.toNat % 8 * 262144 + b.toNat % 64 * 4096 +
        c.toNat % 64 * 64 + d.toNat % 64 := ⟨_, rfl⟩
    rw [spelt, payload, payload, payload, ← number, utf8EncodeChar,
      val_ofNat (by simp only [Nat.isValidChar]; omega), if_neg (by omega), if_neg (by omega),
      if_neg (by omega)]
    simp only [List.cons.injEq, UInt8.ofNat_eq_iff_mod_eq_toNat, and_true]
    omega

theorem encode_injective (same : utf8EncodeChar c = utf8EncodeChar d) : c = d := by
  have read : some c = some d := by
    rw [← List.utf8DecodeChar?_utf8Encode_singleton (c := c),
      ← List.utf8DecodeChar?_utf8Encode_singleton (c := d), List.utf8Encode_singleton,
      List.utf8Encode_singleton, same]
  exact Option.some.inj read

/-- The number of bytes that a lead byte announces, itself included. -/
def width (lead : Nat) : Nat :=
  if lead < 0x80 then 1 else if lead < 0xE0 then 2 else if lead < 0xF0 then 3 else 4

theorem IsSequence.length_eq {a : UInt8} {more : List UInt8} (sequence : IsSequence (a :: more)) :
    (a :: more).length = width a.toNat := by
  unfold width
  cases sequence <;> simp only [List.length_cons, List.length_nil] <;> split_ifs <;> omega

theorem exists_lead (c : Char) :
    ∃ a more, utf8EncodeChar c = a :: more ∧ (utf8EncodeChar c).length = width a.toNat := by
  obtain ⟨a, more, start⟩ := List.exists_cons_of_ne_nil (String.utf8EncodeChar_ne_nil (c := c))
  refine ⟨a, more, start, ?_⟩
  rw [start]
  exact (start ▸ isSequence_encode c).length_eq

/-- No encoding begins another one, for the lead byte decides the length. -/
theorem eq_of_encodings_fit (first : utf8EncodeChar c <+: bytes)
    (second : utf8EncodeChar d <+: bytes) : c = d := by
  obtain ⟨a, more, start, length⟩ := exists_lead c
  obtain ⟨b, more', start', length'⟩ := exists_lead d
  have lead : a = b := by
    obtain ⟨tail, whole⟩ := start ▸ first
    obtain ⟨tail', whole'⟩ := start' ▸ second
    exact (List.cons.inj (whole.trans whole'.symm)).1
  have lengths : (utf8EncodeChar c).length = (utf8EncodeChar d).length := by
    rw [length, length', lead]
  exact encode_injective
    ((List.prefix_of_prefix_length_le first second lengths.le).eq_of_length lengths)

theorem encode_cons (c : Char) (cs : List Char) :
    encode (c :: cs) = utf8EncodeChar c ++ encode cs :=
  List.flatMap_cons

end Encodings

/-- Some character is spelt with these bytes first. -/
def Begins (bytes : List UInt8) : Prop := ∃ c, bytes <+: utf8EncodeChar c

section Beginnings

variable {a b c d : UInt8} {bytes : List UInt8}

theorem IsSequence.begins {whole : List UInt8} (sequence : IsSequence whole)
    (front : bytes <+: whole) : Begins bytes :=
  ⟨Char.ofNat (spelt whole), by rwa [encode_spelt sequence]⟩

theorem Begins.exists_sequence (begins : Begins bytes) :
    ∃ whole, IsSequence whole ∧ bytes <+: whole := by
  obtain ⟨x, front⟩ := begins
  exact ⟨utf8EncodeChar x, isSequence_encode x, front⟩

theorem Begins.of_longer {longer : List UInt8} (begins : Begins longer) (front : bytes <+: longer) :
    Begins bytes := by
  obtain ⟨x, within⟩ := begins
  exact ⟨x, front.trans within⟩

/-- Some byte can follow each lead byte of three or four. -/
theorem exists_second (a : UInt8) : ∃ b : UInt8, admitsSecond a.toNat b.toNat = true := by
  by_cases first : a.toNat = 0xE0 ∨ a.toNat = 0xF0
  · exact ⟨0xA0, admitsSecond_iff.mpr (by simp only [UInt8.reduceToNat]; omega)⟩
  · exact ⟨0x80, admitsSecond_iff.mpr (by simp only [UInt8.reduceToNat]; omega)⟩

theorem begins_three (lead : 0xF0 ≤ a.toNat ∧ a.toNat ≤ 0xF4)
    (second : admitsSecond a.toNat b.toNat = true) (third : isContinuation c.toNat = true) :
    Begins [a, b, c] :=
  (IsSequence.four (d := 0x80) lead second third rfl).begins (List.prefix_append [a, b, c] _)

theorem begins_two (lead : 0xE0 ≤ a.toNat ∧ a.toNat ≤ 0xF4)
    (second : admitsSecond a.toNat b.toNat = true) : Begins [a, b] := by
  by_cases three : a.toNat ≤ 0xEF
  · exact (IsSequence.three (c := 0x80) ⟨lead.1, three⟩ second rfl).begins
      (List.prefix_append [a, b] _)
  · exact (begins_three (c := 0x80) (by omega) second rfl).of_longer (List.prefix_append [a, b] _)

theorem begins_one (lead : 0xC2 ≤ a.toNat ∧ a.toNat ≤ 0xF4) : Begins [a] := by
  by_cases two : a.toNat ≤ 0xDF
  · exact (IsSequence.two (b := 0x80) ⟨lead.1, two⟩ rfl).begins (List.prefix_append [a] _)
  · obtain ⟨b, second⟩ := exists_second a
    exact (begins_two (by omega) second).of_longer (List.prefix_append [a] _)

theorem Begins.lead (begins : Begins [a]) : a.toNat < 0x80 ∨ 0xC2 ≤ a.toNat ∧ a.toNat ≤ 0xF4 := by
  obtain ⟨whole, sequence, front⟩ := begins.exists_sequence
  cases sequence <;> simp only [List.cons_prefix_cons] at front <;> obtain ⟨rfl, -⟩ := front <;>
    omega

theorem Begins.second (begins : Begins [a, b]) :
    0xC2 ≤ a.toNat ∧ a.toNat ≤ 0xDF ∧ isContinuation b.toNat = true ∨
      0xE0 ≤ a.toNat ∧ a.toNat ≤ 0xF4 ∧ admitsSecond a.toNat b.toNat = true := by
  obtain ⟨whole, sequence, front⟩ := begins.exists_sequence
  cases sequence with
  | one => simp at front
  | two lead second =>
    obtain ⟨rfl, rfl, -⟩ := by simpa only [List.cons_prefix_cons] using front
    exact Or.inl ⟨lead.1, lead.2, second⟩
  | three lead second _ =>
    obtain ⟨rfl, rfl, -⟩ := by simpa only [List.cons_prefix_cons] using front
    exact Or.inr ⟨lead.1, by omega, second⟩
  | four lead second _ _ =>
    obtain ⟨rfl, rfl, -⟩ := by simpa only [List.cons_prefix_cons] using front
    exact Or.inr ⟨by omega, lead.2, second⟩

theorem not_begins_of_two (lead : 0xC2 ≤ a.toNat ∧ a.toNat ≤ 0xDF)
    (second : ¬ isContinuation b.toNat = true) : ¬ Begins [a, b] := by
  intro begins
  obtain ⟨-, -, continued⟩ | ⟨high, -⟩ := begins.second
  · exact second continued
  · omega

theorem not_begins_of_more (lead : 0xE0 ≤ a.toNat ∧ a.toNat ≤ 0xF4)
    (second : ¬ admitsSecond a.toNat b.toNat = true) : ¬ Begins [a, b] := by
  intro begins
  obtain ⟨-, low, -⟩ | ⟨-, -, admitted⟩ := begins.second
  · omega
  · exact second admitted

theorem Begins.third (begins : Begins [a, b, c]) : isContinuation c.toNat = true := by
  obtain ⟨whole, sequence, front⟩ := begins.exists_sequence
  cases sequence with
  | one => simp at front
  | two => simp at front
  | three _ _ third =>
    obtain ⟨-, -, rfl, -⟩ := by simpa only [List.cons_prefix_cons] using front
    exact third
  | four _ _ third _ =>
    obtain ⟨-, -, rfl, -⟩ := by simpa only [List.cons_prefix_cons] using front
    exact third

theorem Begins.fourth (begins : Begins [a, b, c, d]) : isContinuation d.toNat = true := by
  obtain ⟨whole, sequence, front⟩ := begins.exists_sequence
  cases sequence with
  | one => simp at front
  | two => simp at front
  | three => simp at front
  | four _ _ _ fourth =>
    obtain ⟨-, -, -, rfl, -⟩ := by simpa only [List.cons_prefix_cons] using front
    exact fourth

end Beginnings

section Neighbours

variable {front rest bytes : List UInt8}

/-- What begins a character and goes beyond `front` has the next byte in it. -/
theorem Begins.within (begins : Begins bytes) (fits : bytes <+: front ++ rest)
    (stuck : ∀ next ∈ rest.head?, ¬ Begins (front ++ [next])) : bytes <+: front := by
  obtain within | ⟨beyond, rfl⟩ :=
    List.prefix_or_prefix_of_prefix fits (List.prefix_append front rest)
  · exact within
  · cases beyond with
    | nil => simp
    | cons next beyond =>
      obtain ⟨more, rfl⟩ := (List.prefix_append_right_inj front).mp fits
      refine absurd (begins.of_longer ?_) (stuck next rfl)
      exact ⟨beyond, (List.append_cons front next beyond).symm⟩

/-- No character goes on with a byte that begins one. -/
theorem not_begins_before_encode (nonempty : front ≠ []) (cs : List Char) :
    ∀ next ∈ (encode cs).head?, ¬ Begins (front ++ [next]) := by
  rintro next first ⟨d, more, whole⟩
  cases cs with
  | nil => cases first
  | cons c cs =>
    obtain ⟨a, tail, start, -⟩ := exists_lead c
    obtain rfl : a = next := by simpa [encode_cons, start] using first
    have some : 0 < (utf8EncodeChar c).length := by simp [start]
    have inside : front.length < (utf8EncodeChar d).length := by simp [← whole]
    have lead : (utf8EncodeChar c)[0].IsUTF8FirstByte :=
      UInt8.isUTF8FirstByte_getElem_utf8EncodeChar.mpr rfl
    have same : (utf8EncodeChar c)[0] = (utf8EncodeChar d)[front.length] := by
      simp [start, ← whole]
    rw [same, UInt8.isUTF8FirstByte_getElem_utf8EncodeChar] at lead
    exact nonempty (List.length_eq_zero_iff.mp lead)

end Neighbours

end TypedSql.Text.Utf8
