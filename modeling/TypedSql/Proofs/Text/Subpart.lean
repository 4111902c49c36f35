import TypedSql.Proofs.Outcome
import TypedSql.Proofs.Text.Sequence

/-! Damaged data. Where data do not begin with a character, the longest bytes that begin some
character are replaced as one, or a single byte that begins none: the maximal subpart of an
ill-formed sequence, in the words of Unicode. This is stated over the encodings alone, and so are
the results of both decoders. -/
namespace TypedSql.Text.Utf8

open String (utf8EncodeChar)

/-- Data `part ++ rest` have `part` replaced as one: they do not begin with a character, and no more
of them begins one than `part`. -/
structure IsSubpart (part rest : List UInt8) : Prop where
  nonempty : part ≠ []
  unspelt : ∀ c, ¬ utf8EncodeChar c <+: part ++ rest
  begins : Begins part ∨ part.length = 1
  longest : ∀ longer, longer <+: part ++ rest → Begins longer → longer.length ≤ part.length

namespace IsSubpart

variable {part rest part' rest' : List UInt8}

theorem length_le (ill : IsSubpart part rest) (ill' : IsSubpart part' rest')
    (same : part ++ rest = part' ++ rest') : part.length ≤ part'.length := by
  cases ill.begins with
  | inl begins => exact ill'.longest part (same ▸ List.prefix_append part rest) begins
  | inr one => exact one ▸ List.length_pos_iff.mpr ill'.nonempty

theorem unique (ill : IsSubpart part rest) (ill' : IsSubpart part' rest')
    (same : part ++ rest = part' ++ rest') : part = part' ∧ rest = rest' :=
  List.append_inj same (Nat.le_antisymm (ill.length_le ill' same) (ill'.length_le ill same.symm))

/-- The lead byte announces more than `part`, and the next byte does not continue it. -/
theorem of_stuck {a : UInt8} {more : List UInt8} (begins : Begins (a :: more) ∨ more = [])
    (short : (a :: more).length < width a.toNat)
    (stuck : ∀ next ∈ rest.head?, ¬ Begins (a :: more ++ [next])) : IsSubpart (a :: more) rest where
  nonempty := List.cons_ne_nil a more
  unspelt c front := by
    have within := Begins.within ⟨c, List.prefix_rfl⟩ front stuck
    obtain ⟨b, bs, start, length⟩ := exists_lead c
    obtain rfl : b = a := (List.cons_prefix_cons.mp (start ▸ within)).1
    exact absurd within.length_le (by omega)
  begins := begins.imp id fun none => by rw [none]; rfl
  longest longer front begins := (begins.within front stuck).length_le

section Leads

variable {a b c : UInt8}

/-- A byte that begins no encoding. -/
theorem stray (high : ¬ a.toNat < 0x80) (none : ¬ (0xC2 ≤ a.toNat ∧ a.toNat ≤ 0xF4)) :
    IsSubpart [a] rest := by
  refine of_stuck (Or.inr rfl) ?_ fun next _ begins => ?_
  · rw [width, if_neg high]
    split_ifs <;> simp
  · have lead := (begins.of_longer (List.prefix_append [a] [next])).lead
    omega

theorem one (lead : 0xC2 ≤ a.toNat ∧ a.toNat ≤ 0xF4) (stuck : ∀ b ∈ rest.head?, ¬ Begins [a, b]) :
    IsSubpart [a] rest := by
  refine of_stuck (Or.inl (begins_one lead)) ?_ stuck
  rw [width, if_neg (by omega)]
  split_ifs <;> simp

theorem two (lead : 0xE0 ≤ a.toNat ∧ a.toNat ≤ 0xF4)
    (second : admitsSecond a.toNat b.toNat = true)
    (stuck : ∀ c ∈ rest.head?, ¬ isContinuation c.toNat = true) : IsSubpart [a, b] rest := by
  refine of_stuck (Or.inl (begins_two lead second)) ?_
    fun c next begins => stuck c next begins.third
  rw [width, if_neg (by omega), if_neg (by omega)]
  split_ifs <;> simp

theorem three (lead : 0xF0 ≤ a.toNat ∧ a.toNat ≤ 0xF4)
    (second : admitsSecond a.toNat b.toNat = true) (third : isContinuation c.toNat = true)
    (stuck : ∀ d ∈ rest.head?, ¬ isContinuation d.toNat = true) : IsSubpart [a, b, c] rest := by
  refine of_stuck (Or.inl (begins_three lead second third)) ?_
    fun d next begins => stuck d next begins.fourth
  rw [width, if_neg (by omega), if_neg (by omega), if_neg (by omega)]
  simp

end Leads

/-- What begins a character does not reach from the data into characters behind them. -/
theorem within_data (ill : IsSubpart part rest) {bytes : List UInt8} (begins : Begins bytes)
    {cs : List Char} (fits : bytes <+: part ++ (rest ++ encode cs)) : bytes <+: part ++ rest := by
  have nonempty := List.append_ne_nil_of_left_ne_nil ill.nonempty rest
  rw [← List.append_assoc] at fits
  exact begins.within fits (not_begins_before_encode nonempty cs)

theorem append_encode (ill : IsSubpart part rest) (cs : List Char) :
    IsSubpart part (rest ++ encode cs) where
  nonempty := ill.nonempty
  unspelt c front := ill.unspelt c (ill.within_data ⟨c, List.prefix_rfl⟩ front)
  begins := ill.begins
  longest longer front begins := ill.longest longer (ill.within_data begins front) begins

end IsSubpart

/-- What the decoder takes off the front of data, with the piece that it makes of it. -/
inductive Front : List UInt8 → Piece → List UInt8 → Prop
  | scalar (c : Char) (rest : List UInt8) : Front (utf8EncodeChar c ++ rest) (.scalar c) rest
  | damaged {part rest : List UInt8} (ill : IsSubpart part rest) :
      Front (part ++ rest) (.damaged part.length) rest
  | cut {part : List UInt8} (ill : IsSubpart part []) : Front (part ++ []) (.cut part.length) []

theorem Front.of_sequence {bytes : List UInt8} (sequence : IsSequence bytes) (rest : List UInt8) :
    Front (bytes ++ rest) (.scalar (Char.ofNat (spelt bytes))) rest := by
  have read := Front.scalar (Char.ofNat (spelt bytes)) rest
  rwa [encode_spelt sequence] at read

/-- One round of the decoder: the cases are those of its definition. -/
theorem exists_front {bytes : List UInt8} (nonempty : bytes ≠ []) :
    ∃ piece rest, pieces bytes = piece :: pieces rest ∧ Front bytes piece rest := by
  fun_cases pieces bytes with
  | case1 => contradiction
  | case2 a rest lead one => exact ⟨_, _, rfl, .of_sequence (.one one) rest⟩
  | case3 a lead one two => exact ⟨_, [], rfl, .cut (.one (by omega) (by simp))⟩
  | case4 a lead one two b rest second => exact ⟨_, _, rfl, .of_sequence (.two two second) rest⟩
  | case5 a lead one two b rest second =>
    exact ⟨_, _, rfl, .damaged (.one (by omega) (by simpa using not_begins_of_two two second))⟩
  | case6 a lead one two three => exact ⟨_, [], rfl, .cut (.one (by omega) (by simp))⟩
  | case7 a lead one two three b second =>
    exact ⟨_, [], rfl, .cut (.two (by omega) second (by simp))⟩
  | case8 a lead one two three b second c rest third =>
    exact ⟨_, _, rfl, .of_sequence (.three three second third) rest⟩
  | case9 a lead one two three b second c rest third =>
    exact ⟨_, _, rfl, .damaged (.two (by omega) second (by simpa using third))⟩
  | case10 a lead one two three b rest second =>
    exact ⟨_, _, rfl, .damaged
      (.one (by omega) (by simpa using not_begins_of_more (by omega) second))⟩
  | case11 a lead one two three four => exact ⟨_, [], rfl, .cut (.one (by omega) (by simp))⟩
  | case12 a lead one two three four b second =>
    exact ⟨_, [], rfl, .cut (.two (by omega) second (by simp))⟩
  | case13 a lead one two three four b second c third =>
    exact ⟨_, [], rfl, .cut (.three four second third (by simp))⟩
  | case14 a lead one two three four b second c third d rest fourth =>
    exact ⟨_, _, rfl, .of_sequence (.four four second third fourth) rest⟩
  | case15 a lead one two three four b second c third d rest fourth =>
    exact ⟨_, _, rfl, .damaged (.three four second third (by simpa using fourth))⟩
  | case16 a lead one two three four b second c rest third =>
    exact ⟨_, _, rfl, .damaged (.two (by omega) second (by simpa using third))⟩
  | case17 a lead one two three four b rest second =>
    exact ⟨_, _, rfl, .damaged
      (.one (by omega) (by simpa using not_begins_of_more (by omega) second))⟩
  | case18 a rest lead one two three four =>
    exact ⟨_, _, rfl, .damaged (.stray one (by omega))⟩

theorem pieces_encode_append (c : Char) (more : List UInt8) :
    pieces (utf8EncodeChar c ++ more) = .scalar c :: pieces more := by
  obtain ⟨piece, rest, cut, front⟩ :=
    exists_front (List.append_ne_nil_of_left_ne_nil String.utf8EncodeChar_ne_nil more)
  rw [cut]
  generalize bytes : utf8EncodeChar c ++ more = data at front
  have first : utf8EncodeChar c <+: data := ⟨more, bytes⟩
  cases front with
  | scalar d rest =>
    obtain rfl := eq_of_encodings_fit first (List.prefix_append _ rest)
    rw [List.append_cancel_left bytes]
  | damaged ill => exact absurd first (ill.unspelt c)
  | cut ill => exact absurd first (ill.unspelt c)

theorem decodeLenient_encode_append (c : Char) (more : List UInt8) :
    decodeLenient (utf8EncodeChar c ++ more) = c :: decodeLenient more := by
  rw [decodeLenient, pieces_encode_append, List.map_cons, Piece.shown, decodeLenient]

theorem IsSubpart.decodeLenient {part more : List UInt8} (ill : IsSubpart part more) :
    decodeLenient (part ++ more) = '\uFFFD' :: decodeLenient more := by
  obtain ⟨piece, rest, cut, front⟩ :=
    exists_front (List.append_ne_nil_of_left_ne_nil ill.nonempty more)
  rw [Utf8.decodeLenient, cut, List.map_cons]
  generalize bytes : part ++ more = data at front
  cases front with
  | scalar c rest => exact absurd (bytes ▸ List.prefix_append _ rest) (ill.unspelt c)
  | damaged other =>
    rw [(ill.unique other bytes).2]
    rfl
  | cut other =>
    rw [(ill.unique other bytes).2]
    rfl

/-- The characters that stand for data: those that are spelt, and U+FFFD once for each longest part
of a character that is not. -/
inductive ShownAs : List UInt8 → List Char → Prop
  | nil : ShownAs [] []
  | scalar (c : Char) {rest : List UInt8} {cs : List Char} (shown : ShownAs rest cs) :
      ShownAs (utf8EncodeChar c ++ rest) (c :: cs)
  | subpart {part rest : List UInt8} {cs : List Char} (ill : IsSubpart part rest)
      (shown : ShownAs rest cs) : ShownAs (part ++ rest) ('\uFFFD' :: cs)

theorem ShownAs.decodeLenient {bytes : List UInt8} {cs : List Char} (shown : ShownAs bytes cs) :
    decodeLenient bytes = cs := by
  induction shown with
  | nil => rw [Utf8.decodeLenient, pieces, List.map_nil]
  | scalar c _ ih => rw [decodeLenient_encode_append, ih]
  | subpart ill _ ih => rw [ill.decodeLenient, ih]

theorem Front.length_lt {bytes rest : List UInt8} {piece : Piece} (front : Front bytes piece rest) :
    rest.length < bytes.length := by
  cases front with
  | scalar c rest => simpa using List.length_pos_iff.mpr String.utf8EncodeChar_ne_nil
  | damaged ill => simpa using List.length_pos_iff.mpr ill.nonempty
  | cut ill => simpa using List.length_pos_iff.mpr ill.nonempty

theorem shownAs_decodeLenient (bytes : List UInt8) : ShownAs bytes (decodeLenient bytes) := by
  induction h : bytes.length using Nat.strong_induction_on generalizing bytes with
  | _ n ih =>
    subst h
    by_cases empty : bytes = []
    · rw [empty, Utf8.decodeLenient, pieces]
      exact .nil
    · obtain ⟨piece, rest, cut, front⟩ := exists_front empty
      have shown := ih _ front.length_lt rest rfl
      rw [Utf8.decodeLenient, cut, List.map_cons]
      cases front with
      | scalar c rest => exact .scalar c shown
      | damaged ill => exact .subpart ill shown
      | cut ill => exact .subpart ill shown

theorem shownAs_iff {bytes : List UInt8} {cs : List Char} :
    ShownAs bytes cs ↔ decodeLenient bytes = cs :=
  ⟨ShownAs.decodeLenient, fun same => same ▸ shownAs_decodeLenient bytes⟩

theorem ShownAs.encode_append {bytes : List UInt8} {ds : List Char} (shown : ShownAs bytes ds)
    (cs : List Char) : ShownAs (encode cs ++ bytes) (cs ++ ds) := by
  induction cs with
  | nil => exact shown
  | cons c cs ih =>
    rw [encode_cons, List.append_assoc]
    exact .scalar c ih

theorem shownAs_encode (cs : List Char) : ShownAs (encode cs) cs := by
  simpa only [List.append_nil] using ShownAs.nil.encode_append cs

theorem ShownAs.append_encode {bytes : List UInt8} {ds : List Char} (shown : ShownAs bytes ds)
    (cs : List Char) : ShownAs (bytes ++ encode cs) (ds ++ cs) := by
  induction shown with
  | nil => exact shownAs_encode cs
  | scalar c _ ih =>
    rw [List.append_assoc]
    exact .scalar c ih
  | subpart ill _ ih =>
    rw [List.append_assoc]
    exact .subpart (ill.append_encode cs) ih

theorem joinStrict_eq_ok_iff {index : Nat} {ps : List Piece} {cs : List Char} :
    joinStrict index ps = .ok cs ↔ ps = cs.map .scalar := by
  induction ps generalizing index cs with
  | nil => cases cs <;> simp [joinStrict]
  | cons p ps ih =>
    cases p with
    | scalar c =>
      rw [joinStrict, map_eq_ok_iff]
      cases cs <;> simp [ih, and_comm]
    | damaged length => cases cs <;> simp [joinStrict]
    | cut length => cases cs <;> simp [joinStrict]

theorem pieces_eq_map_scalar_iff {bytes : List UInt8} {cs : List Char} :
    pieces bytes = cs.map .scalar ↔ encode cs = bytes := by
  constructor
  · intro cut
    induction cs generalizing bytes with
    | nil =>
      by_contra nonempty
      obtain ⟨piece, rest, round, -⟩ := exists_front (Ne.symm nonempty)
      rw [round] at cut
      cases cut
    | cons c cs ih =>
      have nonempty : bytes ≠ [] := by
        rintro rfl
        rw [pieces] at cut
        cases cut
      obtain ⟨piece, rest, round, front⟩ := exists_front nonempty
      obtain ⟨rfl, same⟩ := List.cons.inj (round.symm.trans cut)
      cases front with
      | scalar c rest => rw [encode_cons, ih same]
  · rintro rfl
    induction cs with
    | nil => rw [encode, List.flatMap_nil, pieces, List.map_nil]
    | cons c cs ih => rw [encode_cons, pieces_encode_append, ih, List.map_cons]

/-- Strict decoding reads exactly what encoding writes. -/
theorem decode_eq_ok_iff {bytes : List UInt8} {cs : List Char} :
    decode bytes = .ok cs ↔ encode cs = bytes :=
  joinStrict_eq_ok_iff.trans pieces_eq_map_scalar_iff

theorem isValidUTF8_iff {bytes : List UInt8} :
    bytes.toByteArray.IsValidUTF8 ↔ ∃ cs, encode cs = bytes := by
  constructor
  · rintro ⟨cs, same⟩
    exact ⟨cs, (List.toByteArray_inj.mp same).symm⟩
  · rintro ⟨cs, rfl⟩
    exact ⟨cs, rfl⟩

end TypedSql.Text.Utf8
