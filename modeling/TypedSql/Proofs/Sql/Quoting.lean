import TypedSql.Proofs.Sql.Lexing

/-! A quoted text is safe in front of whatever follows it. The text is cut at its quotes, and each
cut is between two of its characters; what is put together is the text with its quotes doubled, and
a reader of SQL strings gives the text back and stops behind it, unless one more quote follows. -/
namespace TypedSql.Text

open Sql

section Cuts

/-- The range holds a run of the characters of the text, whole ones only. -/
def ByteRange.IsPiece (r : ByteRange) (cs : List Char) : Prop :=
  ∃ before piece after, cs = before ++ piece ++ after ∧
    r = ⟨String.utf8Len before, String.utf8Len (before ++ piece)⟩

/-- The open piece grows until a quote comes, and the next one starts behind the quote. -/
theorem isPiece_of_mem_unquotedRanges (before piece cs : List Char) :
    ∀ r ∈ unquotedRanges (String.utf8Len before) (String.utf8Len (before ++ piece)) cs,
      r.IsPiece (before ++ piece ++ cs) := by
  induction cs generalizing before piece with
  | nil =>
    intro r member
    exact ⟨before, piece, [], rfl, List.mem_singleton.mp member⟩
  | cons c cs ih =>
    unfold unquotedRanges
    split
    case isTrue quote =>
      subst quote
      have rest := ih (before ++ piece ++ ['\x27']) []
      have step : String.utf8Len (before ++ piece ++ ['\x27']) =
          String.utf8Len (before ++ piece) + 1 := by
        rw [String.utf8Len_append (before ++ piece)]
        rfl
      rw [List.append_nil, step, ← List.append_cons] at rest
      exact List.forall_mem_cons.mpr ⟨⟨before, piece, _, rfl, rfl⟩, rest⟩
    case isFalse other =>
      have rest := ih before (piece ++ [c])
      have step : String.utf8Len (before ++ (piece ++ [c])) =
          String.utf8Len (before ++ piece) + c.utf8Size := by
        rw [← List.append_assoc, String.utf8Len_append (before ++ piece), String.utf8Len_cons]
        simp
      simpa only [step, List.append_assoc, List.singleton_append] using rest

/-- A position behind some characters of a text is between two of its characters. -/
theorem isValid_utf8Len {s : String} {front back : List Char} (split : s.toList = front ++ back) :
    String.Pos.Raw.IsValid s ⟨String.utf8Len front⟩ := by
  rw [String.Pos.Raw.isValid_iff_exists_append]
  refine ⟨String.ofList front, String.ofList back, ?_, ?_⟩
  · rw [← String.ofList_append, ← split, String.ofList_toList]
  · rw [String.Pos.Raw.ext_iff, String.byteIdx_rawEndPos, ← String.utf8Len_toList,
      String.toList_ofList]

theorem isValid_of_mem_unquotedRanges {s : String} {r : ByteRange}
    (member : r ∈ unquotedRanges 0 0 s.toList) :
    r.start ≤ r.stop ∧ String.Pos.Raw.IsValid s ⟨r.start⟩ ∧ String.Pos.Raw.IsValid s ⟨r.stop⟩ := by
  obtain ⟨before, piece, after, split, rfl⟩ :=
    isPiece_of_mem_unquotedRanges [] [] s.toList r member
  rw [List.nil_append, List.nil_append] at split
  refine ⟨String.utf8Len_le_of_prefix (List.prefix_append before piece), ?_, isValid_utf8Len split⟩
  rw [List.append_assoc] at split
  exact isValid_utf8Len split

end Cuts

theorem quoted?_doubleQuotes_iff {s rest : List Char} :
    Token.quoted? (doubleQuotes s ++ '\x27' :: rest) = some (s, rest) ↔
      rest.head? ≠ some '\x27' := by
  refine ⟨?_, quoted?_doubleQuotes s⟩
  intro read doubled
  obtain ⟨more, rfl⟩ := List.head?_eq_some_iff.mp doubled
  -- the two quotes stand for one more character of the string
  rw [quoted?_doubleQuotes_append, Token.quoted?, if_pos rfl] at read
  obtain ⟨⟨t, tail⟩, inner, same⟩ := Option.map_eq_some_iff.mp read
  obtain ⟨⟨u, _⟩, _, eq⟩ := Option.map_eq_some_iff.mp inner
  cases eq
  simp at same

theorem first?_quote_append (s t : String) :
    Token.first? (quote s ++ t).toList =
      (Token.quoted? (doubleQuotes s.toList ++ '\x27' :: t.toList)).map
        fun (cs, tail) => (.text (String.ofList cs), tail) := by
  rw [String.toList_append, toList_quote, List.cons_append, List.append_assoc,
    List.singleton_append, Token.first?, Token.next?, if_pos rfl]

/-- What quoting does to a text. Every slice that is taken of it starts and ends between characters,
in order. The quoted text is the text with each quote doubled, between two quotes. In front of
another text it is read as a string of SQL up to its end and with the text as its value, if and only
if the other text does not start with a quote. -/
theorem quote_reads_back (s : String) :
    (∀ r ∈ unquotedRanges 0 0 s.toList, r.start ≤ r.stop ∧
      String.Pos.Raw.IsValid s ⟨r.start⟩ ∧ String.Pos.Raw.IsValid s ⟨r.stop⟩) ∧
    (quote s).toList = '\x27' :: (doubleQuotes s.toList ++ ['\x27']) ∧
    ∀ t : String, Token.first? (quote s ++ t).toList = some (.text s, t.toList) ↔
      t.toList.head? ≠ some '\x27' := by
  refine ⟨fun r member => isValid_of_mem_unquotedRanges member, toList_quote s, fun t => ?_⟩
  rw [← quoted?_doubleQuotes_iff (s := s.toList), first?_quote_append, Option.map_eq_some_iff]
  constructor
  · rintro ⟨⟨cs, tail⟩, inner, same⟩
    cases same
    rwa [String.toList_ofList] at inner ⊢
  · intro inner
    exact ⟨_, inner, by simp only [String.ofList_toList]⟩

/-- A character of two bytes between two quotes. -/
theorem quote_reads_back_ligature :
    ⟨1, 3⟩ ∈ unquotedRanges 0 0 "'œ'".toList ∧ String.Pos.Raw.IsValid "'œ'" ⟨3⟩ ∧
      Token.first? (quote "'œ'" ++ ", 2").toList = some (.text "'œ'", ", 2".toList) := by
  obtain ⟨cuts, -, reads⟩ := quote_reads_back "'œ'"
  have member : ⟨1, 3⟩ ∈ unquotedRanges 0 0 "'œ'".toList := by decide
  exact ⟨member, (cuts _ member).2.2, (reads ", 2").mpr (by decide)⟩

end TypedSql.Text
