import Mathlib.Data.String.Basic
import TypedSql.Text.Delimited

/-! A quoted text is its characters with each quote doubled. The pieces that are cut out by byte
positions and joined again are the characters themselves. -/
namespace TypedSql.Text

def doubleQuotes (cs : List Char) : List Char :=
  cs.flatMap fun c => if c = '\x27' then ['\x27', '\x27'] else [c]

theorem doubleQuotes_of_notMem {cs : List Char} (plain : '\x27' ∉ cs) : doubleQuotes cs = cs := by
  induction cs with
  | nil => rfl
  | cons c cs ih =>
    obtain ⟨other, rest⟩ := not_or.mp (List.mem_cons.not.mp plain)
    have kept : doubleQuotes (c :: cs) = c :: doubleQuotes cs := by
      simp [doubleQuotes, Ne.symm other]
    rw [kept, ih rest]

/-- The bytes of a text in front of another, and of a part of it, give the part back. -/
theorem slice_ofList (before piece after : List Char) :
    ByteRange.slice ⟨String.utf8Len before, String.utf8Len (before ++ piece)⟩
      (String.ofList (before ++ piece ++ after)) = String.ofList piece := by
  rw [String.utf8Len_append]
  exact String.extract_of_valid before piece after

theorem unquotedRanges_ne_nil (start here : Nat) (cs : List Char) :
    unquotedRanges start here cs ≠ [] := by
  induction cs generalizing here with
  | nil => simp [unquotedRanges]
  | cons c cs ih =>
    unfold unquotedRanges
    split
    · exact List.cons_ne_nil _ _
    · exact ih _

/-- The pieces of a text from the open one on: what is read of it, and the rest with its quotes
doubled when the pieces are joined. -/
theorem intercalate_unquotedRanges (before piece cs : List Char) :
    "''".toList.intercalate
        ((unquotedRanges (String.utf8Len before) (String.utf8Len (before ++ piece)) cs).map fun r =>
          (r.slice (String.ofList (before ++ piece ++ cs))).toList) =
      piece ++ doubleQuotes cs := by
  induction cs generalizing before piece with
  | nil =>
    simp only [unquotedRanges, List.map_cons, List.map_nil, List.intercalate_singleton]
    rw [slice_ofList, String.toList_ofList]
    simp [doubleQuotes]
  | cons c cs ih =>
    unfold unquotedRanges
    split
    case isTrue quote =>
      subst quote
      have rest := ih (before ++ piece ++ ['\x27']) []
      have step : String.utf8Len (before ++ piece ++ ['\x27']) =
          String.utf8Len (before ++ piece) + 1 := by
        rw [String.utf8Len_append (before ++ piece)]
        rfl
      simp only [List.append_nil, step] at rest
      rw [List.map_cons, List.intercalate_cons_of_ne_nil, slice_ofList, String.toList_ofList]
      · simp only [List.append_assoc, List.singleton_append] at rest ⊢
        rw [rest]
        simp [doubleQuotes]
      · simpa using unquotedRanges_ne_nil _ _ _
    case isFalse other =>
      have rest := ih before (piece ++ [c])
      have step : String.utf8Len (before ++ (piece ++ [c])) =
          String.utf8Len (before ++ piece) + c.utf8Size := by
        rw [← List.append_assoc, String.utf8Len_append (before ++ piece), String.utf8Len_cons]
        simp
      simp only [step, List.append_assoc, List.singleton_append] at rest ⊢
      rw [rest]
      simp [doubleQuotes, other]

/-- A quoted text is its characters, with quotes doubled, between two quotes. -/
theorem toList_quote (s : String) :
    (quote s).toList = '\x27' :: (doubleQuotes s.toList ++ ['\x27']) := by
  have pieces := intercalate_unquotedRanges [] [] s.toList
  simp only [List.append_nil, List.nil_append, String.ofList_toList] at pieces
  have joined : (String.intercalate "''" ((unquotedRanges 0 0 s.toList).map (·.slice s))).toList =
      doubleQuotes s.toList := by
    rw [String.toList_intercalate, List.map_map]
    exact pieces
  simp [quote, joined]

end TypedSql.Text
