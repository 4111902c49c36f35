import TypedSql.Uuid

/-! An identifier is read back from its text. The hyphens tell the text from the plain digits, and
neither a brace nor `Uuid.resourceMark` can stand in front of digits. -/
namespace TypedSql.Uuid

open Text

section Hyphens

variable {cs : List Char}

/-- Without its hyphens a hyphenated text is the digits that it was made of. -/
theorem filter_hyphenate (bare : ∀ c ∈ cs, c ≠ '-') : (hyphenate cs).filter (· != '-') = cs := by
  have kept : ∀ ds : List Char, (∀ c ∈ ds, c ∈ cs) → ds.filter (· != '-') = ds := by
    intro ds part
    exact List.filter_eq_self.mpr fun c member => bne_iff_ne.mpr (bare c (part c member))
  have joined : cs.take 8 ++ ((cs.drop 8).take 4 ++ ((cs.drop 12).take 4 ++
      ((cs.drop 16).take 4 ++ cs.drop 20))) = cs := by
    have next : ∀ n, (cs.drop n).take 4 ++ cs.drop (n + 4) = cs.drop n := by
      intro n
      rw [← List.drop_drop, List.take_append_drop]
    rw [next 16, next 12, next 8, List.take_append_drop]
  have hyphen : ∀ ds : List Char, ('-' :: ds).filter (· != '-') = ds.filter (· != '-') :=
    fun _ => List.filter_cons_of_neg (by decide)
  have first : (cs.take 8).filter (· != '-') = cs.take 8 :=
    kept _ fun _ member => List.mem_of_mem_take member
  have middle : ∀ n, ((cs.drop n).take 4).filter (· != '-') = (cs.drop n).take 4 := fun _ =>
    kept _ fun _ member => List.mem_of_mem_drop (List.mem_of_mem_take member)
  have last : (cs.drop 20).filter (· != '-') = cs.drop 20 :=
    kept _ fun _ member => List.mem_of_mem_drop member
  rw [hyphenate]
  simp only [List.filter_append, hyphen, first, middle, last]
  exact joined

theorem hyphen_mem_hyphenate (cs : List Char) : '-' ∈ hyphenate cs :=
  List.mem_append_right _ List.mem_cons_self

theorem head?_hyphenate (nonempty : cs ≠ []) : (hyphenate cs).head? = cs.head? := by
  cases cs with
  | nil => exact absurd rfl nonempty
  | cons c cs => rfl

/-- Behind eight digits stands a hyphen, where the resource mark has a colon. -/
theorem not_resourceMark_hyphenate (long : 8 ≤ cs.length) :
    ((hyphenate cs).take resourceMark.length).map Char.toLower ≠ resourceMark := by
  intro marked
  have eighth : (hyphenate cs)[8]? = some '-' := by
    have before : (cs.take 8).length = 8 := List.length_take_of_le long
    rw [hyphenate, List.getElem?_append_right (Nat.le_of_eq before), before]
    rfl
  have colon : (((hyphenate cs).take resourceMark.length).map Char.toLower)[8]? = some ':' := by
    rw [marked]
    rfl
  rw [List.getElem?_map, List.getElem?_take_of_lt (by decide), eighth] at colon
  exact absurd colon (by decide)

end Hyphens

variable (u : Uuid)

def digits : List Char := Hex.ofBytes .lower u.bytes

theorem length_digits : u.digits.length = 32 := by
  rw [digits, Hex.length_ofBytes, u.length_eq]

theorem isSome_value?_of_mem_digits {c : Char} (h : c ∈ u.digits) :
    (Hex.value? c).isSome = true :=
  Hex.isSome_value?_of_mem_ofBytes h

theorem readPlain?_digits : readPlain? u.digits = some u := by
  rw [readPlain?, digits, Hex.toBytes?_ofBytes]
  exact ofBytes?_bytes u

/-- A hyphen is no digit. -/
theorem readPlain?_chars : readPlain? u.chars = none := by
  cases bytes : Hex.toBytes? u.chars with
  | none => rw [readPlain?, bytes]; rfl
  | some bs =>
    have digit := Hex.isSome_value?_of_toBytes? bytes '-' (hyphen_mem_hyphenate _)
    exact absurd digit (by decide)

theorem readHyphenated?_chars : readHyphenated? u.chars = some u := by
  have bare : u.chars.filter (· != '-') = u.digits := by
    apply filter_hyphenate
    rintro c member rfl
    exact absurd (u.isSome_value?_of_mem_digits member) (by decide)
  rw [readHyphenated?, bare]
  exact (if_pos rfl).trans u.readPlain?_digits

theorem chars_ne_brace_cons (rest : List Char) : u.chars ≠ '\x7b' :: rest := by
  intro braced
  have nonempty : u.digits ≠ [] := List.ne_nil_of_length_pos (by rw [length_digits]; decide)
  have first : u.digits.head? = some '\x7b' := by
    rw [← head?_hyphenate nonempty]
    exact congrArg List.head? braced
  have digit := u.isSome_value?_of_mem_digits (List.mem_of_mem_head? first)
  exact absurd digit (by decide)

/-- The text of an identifier is read as the identifier. -/
theorem read?_chars : read? u.chars = some u := by
  have long : 8 ≤ u.digits.length := by
    rw [length_digits]
    decide
  have unmarked := not_resourceMark_hyphenate long
  rw [read?, readPlain?_chars]
  dsimp only
  split
  · next marked => exact absurd marked unmarked
  · exact u.readHyphenated?_chars
  · exact u.chars_ne_brace_cons

end TypedSql.Uuid
