import TypedSql.Proofs.Sql.Lexing
import TypedSql.Proofs.Sql.Parsing

/-! Conditions as they stand in statements, where names may carry a mark: `@P3` is the place of a
parameter, and `-inf` is a name behind a sign. Reading is local: a border behind a text does not
change what the text is read as, so that the tokens of a whole are those of its parts. -/
namespace TypedSql.Sql

open Numeric Text

section Local

variable {cs tail rest : List Char}

namespace Token

theorem quoted?_append {s : List Char} (read : quoted? cs = some (s, tail)) (after : Ends rest) :
    quoted? (cs ++ rest) = some (s, tail ++ rest) := by
  fun_induction quoted? cs generalizing s with
  | case1 => cases read
  | case2 more ih =>
    obtain ⟨⟨s, tail⟩, inside, same⟩ := Option.map_eq_some_iff.mp read
    cases same
    rw [List.cons_append, List.cons_append, quoted?]
    simp [ih inside]
  | case3 =>
    rename_i single
    cases read
    have closed : tail.head? ≠ some '\x27' := by
      intro same
      obtain ⟨more, shape⟩ := List.head?_eq_some_iff.mp same
      exact single more shape
    exact quoted?_closing (after.head?_append_ne (by decide) closed)
  | case4 c ds other ih =>
    obtain ⟨⟨s, tail⟩, inside, same⟩ := Option.map_eq_some_iff.mp read
    cases same
    unfold quoted?
    simp [other, ih inside]

theorem blob?_append {bytes : List UInt8} (read : blob? cs = some (bytes, tail)) :
    blob? (cs ++ rest) = some (bytes, tail ++ rest) := by
  unfold blob? at read
  split at read
  case h_1 => cases read
  case h_2 quote behind closed =>
    obtain ⟨_, value, same⟩ := Option.map_eq_some_iff.mp read
    cases same
    have inside : ∀ c ∈ cs.takeWhile (· != '\x27'), (c != '\x27') = true :=
      List.all_eq_true.mp (List.all_takeWhile ..)
    have stop := List.head?_dropWhile_not (· != '\x27') cs
    rw [closed] at stop
    have border : ∀ c ∈ (quote :: (tail ++ rest)).head?, (c != '\x27') = false :=
      fun c member => Option.some.inj member ▸ stop
    have split : cs ++ rest = cs.takeWhile (· != '\x27') ++ quote :: (tail ++ rest) := by
      rw [← List.cons_append, ← closed, ← List.append_assoc, List.takeWhile_append_dropWhile]
    rw [blob?, split, takeWhile_append_eq inside border, dropWhile_append_eq inside border]
    simp [value]

theorem fraction_append (cs : List Char) (after : Ends rest) :
    fraction (cs ++ rest) = ((fraction cs).1, (fraction cs).2 ++ rest) := by
  have stop : ∀ c ∈ rest.head?, c.isDigit = false := after.of_head? rfl rfl rfl
  by_cases point : cs.head? = some '.'
  · obtain ⟨ds, rfl⟩ := List.head?_eq_some_iff.mp point
    simp only [List.cons_append, fraction, takeWhile_append_of_stop _ stop,
      dropWhile_append_of_stop _ stop]
  · rw [fraction_of_ne point, fraction_of_ne (after.head?_append_ne (by decide) point)]

theorem splitSign_append_right (c : Char) (cs rest : List Char) :
    splitSign (c :: (cs ++ rest)) = ((splitSign (c :: cs)).1, (splitSign (c :: cs)).2 ++ rest) := by
  unfold splitSign
  split <;> simp_all

theorem number?_append {c : Char} {n : Numeral} (read : number? (c :: cs) = some (n, tail))
    (after : Ends rest) : number? (c :: (cs ++ rest)) = some (n, tail ++ rest) := by
  have stop : ∀ c ∈ rest.head?, c.isDigit = false := after.of_head? rfl rfl rfl
  have border : ∀ cs : List Char, (cs ++ rest).head?.any isWordChar = cs.head?.any isWordChar :=
    after.any_head?_append rfl rfl rfl
  simp only [number?, splitSign_append_right, takeWhile_append_of_stop _ stop,
    dropWhile_append_of_stop _ stop, fraction_append _ after, border] at read ⊢
  split at read
  case isTrue => cases read
  case isFalse sound =>
    cases read
    rw [if_neg sound]

theorem punctuation?_less (greater : cs.head? ≠ some '>') (equal : cs.head? ≠ some '=') :
    punctuation? '<' cs = some (.relation .less, cs) := by
  simp only [punctuation?, Char.reduceEq, if_false, if_true]
  split
  case h_1 => exact absurd rfl greater
  case h_2 => exact absurd rfl equal
  case h_3 => rfl

theorem punctuation?_greater (equal : cs.head? ≠ some '=') :
    punctuation? '>' cs = some (.relation .greater, cs) := by
  simp only [punctuation?, Char.reduceEq, if_false, if_true]
  split
  case h_1 => exact absurd rfl equal
  case h_2 => rfl

theorem punctuation?_append {c : Char} {t : Token} (read : punctuation? c cs = some (t, tail))
    (after : Ends rest) : punctuation? c (cs ++ rest) = some (t, tail ++ rest) := by
  by_cases less : c = '<'
  · subst less
    by_cases greater : cs.head? = some '>'
    · obtain ⟨ds, rfl⟩ := List.head?_eq_some_iff.mp greater
      cases read
      rfl
    by_cases equal : cs.head? = some '='
    · obtain ⟨ds, rfl⟩ := List.head?_eq_some_iff.mp equal
      cases read
      rfl
    rw [punctuation?_less greater equal] at read
    cases read
    exact punctuation?_less (after.head?_append_ne (by decide) greater)
      (after.head?_append_ne (by decide) equal)
  by_cases greater : c = '>'
  · subst greater
    by_cases equal : cs.head? = some '='
    · obtain ⟨ds, rfl⟩ := List.head?_eq_some_iff.mp equal
      cases read
      rfl
    rw [punctuation?_greater equal] at read
    cases read
    exact punctuation?_greater (after.head?_append_ne (by decide) equal)
  simp only [punctuation?, less, greater, if_false] at read ⊢
  split_ifs at read ⊢ <;> cases read <;> rfl

/-- A border behind the text does not change its first token. -/
theorem next?_append {c : Char} {t : Token} (read : next? c cs = some (t, tail))
    (after : Ends rest) : next? c (cs ++ rest) = some (t, tail ++ rest) := by
  have stop : ∀ c ∈ rest.head?, isWordChar c = false := after.of_head? rfl rfl rfl
  have opening : (cs ++ rest).head? = some '\x27' ↔ cs.head? = some '\x27' := by
    constructor
    · intro same
      by_contra other
      exact after.head?_append_ne (by decide) other same
    · intro same
      rw [List.head?_append, same]
      rfl
  unfold next? at read ⊢
  simp only [opening]
  split_ifs at read ⊢ with quote blob word number
  · obtain ⟨⟨s, tail⟩, inside, same⟩ := Option.map_eq_some_iff.mp read
    cases same
    rw [quoted?_append inside after]
    rfl
  · obtain ⟨⟨bytes, tail⟩, inside, same⟩ := Option.map_eq_some_iff.mp read
    cases same
    obtain ⟨ds, rfl⟩ := List.head?_eq_some_iff.mp blob.2
    rw [List.tail_cons] at inside
    rw [List.cons_append, List.tail_cons, blob?_append inside]
    rfl
  · cases read
    rw [takeWhile_append_of_stop _ stop, dropWhile_append_of_stop _ stop]
  · obtain ⟨⟨n, tail⟩, inside, same⟩ := Option.map_eq_some_iff.mp read
    cases same
    rw [number?_append inside after]
    rfl
  · exact punctuation?_append read after

end Token

end Local

/-- A name behind `@` or behind a sign. -/
def Token.marked? (c : Char) (rest : List Char) : Option (Token × List Char) :=
  if (c = '@' ∨ c = '-') ∧ rest.head?.any isWordStart then
    some (.name (String.ofList (c :: rest.takeWhile isWordChar)), rest.dropWhile isWordChar)
  else none

def Token.nextMarked? (c : Char) (rest : List Char) : Option (Token × List Char) :=
  (marked? c rest).or (next? c rest)

/-- The tokens of a text in which names may carry a mark. -/
def markedTokens? : List Char → Option (List Token)
  | [] => some []
  | c :: rest =>
    if c.isWhitespace then markedTokens? rest
    else
      match Token.nextMarked? c rest with
      | none => none
      | some (token, tail) =>
        if tail.length ≤ rest.length then (markedTokens? tail).map (token :: ·) else none
termination_by cs => cs.length

/-- The condition that a whole text is, with names that may carry a mark. -/
def parseMarked? (text : String) : Option Tree := do
  let ts ← markedTokens? text.toList
  match condition? ts.length ts with
  | some (tree, []) => some tree
  | _ => none

section Marks

variable {c : Char} {cs tail rest : List Char} {t : Token}

/-- Nothing else begins with a mark. -/
theorem Token.marked?_eq_none (read : next? c cs = some (t, tail)) : marked? c cs = none := by
  unfold marked?
  rw [if_neg]
  rintro ⟨rfl | rfl, word⟩
  · cases read
  · cases cs with
    | nil => cases word
    | cons d cs =>
      -- behind a sign a number has a digit, and no word begins with one
      have noDigit : d.isDigit = false := by
        by_contra digit
        rw [Bool.not_eq_false] at digit
        exact absurd word (by simp [isWordStart_of_isDigit digit])
      have none : number? ('-' :: d :: cs) = none := by
        simp [number?, splitSign, noDigit]
      rw [next?_number (Or.inr rfl), none] at read
      cases read

theorem Token.nextMarked?_append (read : nextMarked? c cs = some (t, tail)) (after : Ends rest) :
    nextMarked? c (cs ++ rest) = some (t, tail ++ rest) := by
  have stop : ∀ c ∈ rest.head?, isWordChar c = false := after.of_head? rfl rfl rfl
  have start := after.any_head?_append (p := isWordStart) rfl rfl rfl cs
  unfold nextMarked? marked? at read ⊢
  rw [start]
  split_ifs at read ⊢
  · cases read
    rw [takeWhile_append_of_stop _ stop, dropWhile_append_of_stop _ stop]
    rfl
  · exact next?_append read after

theorem Token.nextMarked?_of_next? (read : next? c cs = some (t, tail)) :
    nextMarked? c cs = some (t, tail) := by
  rw [nextMarked?, marked?_eq_none read, Option.none_or, read]

end Marks

section Spelling

variable {cs ds : List Char} {ts us : List Token} {t : Token}

/-- The text is read as these tokens. -/
def Spelt (cs : List Char) (ts : List Token) : Prop := markedTokens? cs = some ts

theorem markedTokens?_cons {c : Char} {tail : List Char} (solid : c.isWhitespace = false)
    (next : Token.nextMarked? c cs = some (t, tail)) (shorter : tail.length ≤ cs.length) :
    markedTokens? (c :: cs) = (markedTokens? tail).map (t :: ·) := by
  rw [markedTokens?, if_neg (by simp [solid]), next]
  simp only [shorter, if_true]

/-- Without a mark the tokens are the same. -/
theorem Spelt.of_tokens? (read : tokens? cs = some ts) : Spelt cs ts := by
  unfold Spelt
  fun_induction tokens? cs generalizing ts with
  | case1 => rwa [markedTokens?]
  | case2 c rest white ih =>
    rw [markedTokens?, if_pos white]
    exact ih read
  | case3 => cases read
  | case4 c rest solid token tail next shorter ih =>
    obtain ⟨more, inside, rfl⟩ := Option.map_eq_some_iff.mp read
    rw [markedTokens?_cons (Bool.eq_false_iff.mpr solid) (Token.nextMarked?_of_next? next) shorter,
      ih inside]
    rfl
  | case5 => cases read

/-- A text in front of a border, and what is read behind it. -/
theorem Spelt.append (first : Spelt cs ts) (last : Spelt ds us) (border : Ends ds) :
    Spelt (cs ++ ds) (ts ++ us) := by
  unfold Spelt at first ⊢
  fun_induction markedTokens? cs generalizing ts with
  | case1 =>
    cases first
    exact last
  | case2 c rest white ih =>
    rw [List.cons_append, markedTokens?, if_pos white]
    exact ih first
  | case3 => cases first
  | case4 c rest solid token tail next shorter ih =>
    obtain ⟨more, inside, rfl⟩ := Option.map_eq_some_iff.mp first
    have shorter' : (tail ++ ds).length ≤ (rest ++ ds).length := by
      simpa only [List.length_append, Nat.add_le_add_iff_right] using shorter
    rw [List.cons_append, markedTokens?_cons (Bool.eq_false_iff.mpr solid)
      (Token.nextMarked?_append next border) shorter', ih inside]
    rfl
  | case5 => cases first

namespace Spelt

theorem nil : Spelt [] [] := by
  rw [Spelt, markedTokens?]

theorem blank (h : Spelt ds us) : Spelt (' ' :: ds) us := by
  rw [Spelt, markedTokens?, if_pos (by decide)]
  exact h

/-- Two texts with a blank between them. -/
theorem spaced (first : Spelt cs ts) (last : Spelt ds us) : Spelt (cs ++ ' ' :: ds) (ts ++ us) :=
  first.append last.blank (ends_cons (Or.inl rfl))

/-- A token that is one character, whatever comes next. -/
theorem cons {c : Char} (next : Token.next? c ds = some (t, ds)) (h : Spelt ds us) :
    Spelt (c :: ds) (t :: us) := by
  rw [Spelt, markedTokens?_cons (solid_of_next? next) (Token.nextMarked?_of_next? next) le_rfl, h]
  rfl

theorem opening (h : Spelt ds us) : Spelt ('(' :: ds) (.opening :: us) := h.cons rfl

theorem comma (h : Spelt ds us) : Spelt (',' :: ds) (.comma :: us) := h.cons rfl

theorem closing : Spelt [')'] [.closing] := nil.cons rfl

theorem keyword (k : Keyword) : Spelt k.word.toList [.keyword k] :=
  .of_tokens? (Lexes.keyword k).tokens?_eq

theorem relation (r : Relation) : Spelt r.sign.toList [.relation r] := by
  have double : ∀ {c d : Char}, Token.next? c [d] = some (.relation r, []) →
      Spelt [c, d] [.relation r] := by
    intro c d next
    rw [Spelt, markedTokens?_cons (solid_of_next? next) (Token.nextMarked?_of_next? next)
      (Nat.zero_le _), nil]
    rfl
  cases r
  case equal | greater | less => exact nil.cons rfl
  case unequal | greaterOrEqual | lessOrEqual => exact double rfl

/-- A name behind its mark. -/
theorem marked {c : Char} (mark : c = '@' ∨ c = '-') {d : Char} (start : isWordStart d = true)
    (inside : ∀ e ∈ d :: ds, isWordChar e = true) :
    Spelt (c :: d :: ds) [.name (String.ofList (c :: d :: ds))] := by
  have stop : ∀ e ∈ ([] : List Char).head?, isWordChar e = false := nofun
  have next : Token.nextMarked? c (d :: ds) = some (.name (String.ofList (c :: d :: ds)), []) := by
    have run := takeWhile_append_eq inside stop
    have rest := dropWhile_append_eq inside stop
    rw [List.append_nil] at run rest
    rw [Token.nextMarked?, Token.marked?, if_pos ⟨mark, start⟩, run, rest]
    rfl
  have solid : c.isWhitespace = false := by
    rcases mark with rfl | rfl <;> rfl
  rw [Spelt, markedTokens?_cons solid next (Nat.zero_le _), nil]
  rfl

end Spelt

end Spelling

section Reading

theorem parseMarked?_of_tokens {text : String} {ts : List Token} {tree : Tree}
    (lexed : markedTokens? text.toList = some ts) (read : condition? ts.length ts = some (tree, [])) :
    parseMarked? text = some tree := by
  simp [parseMarked?, lexed, read]

/-- A single member is a condition. -/
theorem takes_single {depth : Nat} {ts : List Token} {tree : Tree}
    (takes : Takes (negation? (condition? depth)) Whatever ts tree) :
    Takes (condition? (depth + 1)) EndsCondition ts tree := by
  have each : ∀ run ∈ [[tree]], ∀ t ∈ run, Takes (negation? (condition? depth)) Whatever ts t := by
    simpa using takes
  have alone : Takes (condition? (depth + 1)) EndsCondition (joinRuns (fun _ => ts) [[tree]])
      (.ofRuns id [[tree]]) :=
    takes_disjunction (List.cons_ne_nil _ _) (by simp) each
  simpa [joinRuns, Tree.ofRuns, Tree.ofAll, Tree.ofAny] using alone

/-- A text whose tokens are one member is read as that. -/
theorem parseMarked?_eq {text : String} {ts : List Token} {tree : Tree} (nonempty : ts ≠ [])
    (spelt : Spelt text.toList ts)
    (takes : ∀ depth, Takes (negation? (condition? depth)) Whatever ts tree) :
    parseMarked? text = some tree := by
  have read := takes_single (takes (ts.length - 1)) [] ⟨nofun, nofun⟩
  rw [List.append_nil, Nat.sub_add_cancel (List.length_pos_iff.mpr nonempty)] at read
  exact parseMarked?_of_tokens spelt read

/-- Without a mark the condition is the same. -/
theorem parseMarked?_of_parse? {text : String} {tree : Tree} (read : parse? text = some tree) :
    parseMarked? text = some tree := by
  cases lexed : tokens? text.toList with
  | none => simp [parse?, lexed] at read
  | some ts =>
    simp only [parse?, lexed, Option.bind_eq_bind, Option.bind_some] at read
    split at read
    case h_1 whole =>
      cases read
      exact parseMarked?_of_tokens (Spelt.of_tokens? lexed) whole
    case h_2 => cases read

end Reading

end TypedSql.Sql
