import TypedSql.Proofs.Numeric.Digits
import TypedSql.Proofs.Sql.Token
import TypedSql.Proofs.Text.Pieces
import TypedSql.Proofs.Text.Quoted

/-! Which tokens a piece of text is read as, whatever allowed text follows it. Words, numbers and
strings need a border behind them, which a blank, a comma and a closing parenthesis are; a piece
that ends in a blank or an opening parenthesis needs nothing. -/
namespace TypedSql.Sql

open Numeric Text

/-- The text is over, or goes on with a blank, a comma or a closing parenthesis. -/
def Ends (cs : List Char) : Prop := ∀ c ∈ cs.head?, c = ' ' ∨ c = ',' ∨ c = ')'

def Anything (_ : List Char) : Prop := True

/-- Reads one token from the front of a text. -/
def Token.first? : List Char → Option (Token × List Char)
  | [] => none
  | c :: rest => next? c rest

/-- In front of a border, the piece is read as this token and no further. -/
def Token.WrittenAs (t : Token) (cs : List Char) : Prop :=
  ∀ rest, Ends rest → first? (cs ++ rest) = some (t, rest)

/-- In front of a text that may follow it, the piece is read as these tokens. -/
def Lexes (follows : List Char → Prop) (cs : List Char) (ts : List Token) : Prop :=
  ∀ rest, follows rest → tokens? (cs ++ rest) = (tokens? rest).map (ts ++ ·)

section Endings

variable {cs : List Char}

theorem ends_nil : Ends [] := nofun

theorem ends_cons {c : Char} (h : c = ' ' ∨ c = ',' ∨ c = ')') : Ends (c :: cs) := by
  intro d member
  obtain rfl : c = d := Option.some.inj member
  exact h

theorem Ends.append {rest : List Char} (h : Ends cs) (h' : Ends rest) : Ends (cs ++ rest) := by
  cases cs with
  | nil => exact h'
  | cons c cs => exact ends_cons (h c rfl)

theorem Ends.of_head? (h : Ends cs) {p : Char → Bool} (blank : p ' ' = false)
    (comma : p ',' = false) (closing : p ')' = false) : ∀ c ∈ cs.head?, p c = false := by
  intro c member
  rcases h c member with rfl | rfl | rfl
  · exact blank
  · exact comma
  · exact closing

/-- A border changes nothing where the next character is looked at for something else. -/
theorem Ends.any_head?_append {rest : List Char} (after : Ends rest) {p : Char → Bool}
    (blank : p ' ' = false) (comma : p ',' = false) (closing : p ')' = false) (cs : List Char) :
    (cs ++ rest).head?.any p = cs.head?.any p := by
  cases cs with
  | cons c cs => rfl
  | nil =>
    have border := after.of_head? blank comma closing
    cases rest with
    | nil => rfl
    | cons c rest => exact border c rfl

theorem Ends.head?_ne (h : Ends cs) {d : Char} (apart : d ≠ ' ' ∧ d ≠ ',' ∧ d ≠ ')') :
    cs.head? ≠ some d := by
  intro same
  rcases h d same with rfl | rfl | rfl
  · exact apart.1 rfl
  · exact apart.2.1 rfl
  · exact apart.2.2 rfl

theorem Ends.head?_append_ne {rest : List Char} (after : Ends rest) {d : Char}
    (apart : d ≠ ' ' ∧ d ≠ ',' ∧ d ≠ ')') (other : cs.head? ≠ some d) :
    (cs ++ rest).head? ≠ some d := by
  cases cs with
  | nil => exact after.head?_ne apart
  | cons c cs => exact other

end Endings

theorem tokens?_nil : tokens? [] = some [] := by
  rw [tokens?]

theorem tokens?_blank (rest : List Char) : tokens? (' ' :: rest) = tokens? rest := by
  rw [tokens?, if_pos (by decide)]

/-- No token begins with a blank. -/
theorem solid_of_next? {c : Char} {cs : List Char} {read : Token × List Char}
    (next : Token.next? c cs = some read) : c.isWhitespace = false := by
  rw [Bool.eq_false_iff]
  intro white
  simp only [Char.isWhitespace, Bool.or_eq_true, decide_eq_true_eq] at white
  rcases white with ((rfl | rfl) | rfl) | rfl <;> cases next

/-- One token, and what is read behind it. -/
theorem tokens?_cons {c : Char} {cs rest : List Char} {token : Token}
    (next : Token.next? c cs = some (token, rest)) (shorter : rest.length ≤ cs.length) :
    tokens? (c :: cs) = (tokens? rest).map (token :: ·) := by
  rw [tokens?, if_neg (by simp [solid_of_next? next]), next]
  simp only [shorter, if_true]

namespace Lexes

variable {follows before : List Char → Prop} {cs ds : List Char} {ts us : List Token}

theorem tokens?_eq (h : Lexes Ends cs ts) : tokens? cs = some ts := by
  have read := h [] ends_nil
  rw [List.append_nil, tokens?_nil] at read
  simpa using read

theorem mono (h : Lexes before cs ts) (le : ∀ rest, follows rest → before rest) :
    Lexes follows cs ts :=
  fun rest after => h rest (le rest after)

theorem append (first : Lexes before cs ts) (last : Lexes follows ds us)
    (joins : ∀ rest, follows rest → before (ds ++ rest)) :
    Lexes follows (cs ++ ds) (ts ++ us) := by
  intro rest after
  rw [List.append_assoc, first _ (joins rest after), last rest after, Option.map_map]
  simp only [Function.comp_def, List.append_assoc]

/-- A piece that needs nothing behind it. -/
theorem andThen (first : Lexes Anything cs ts) (last : Lexes follows ds us) :
    Lexes follows (cs ++ ds) (ts ++ us) :=
  first.append last fun _ _ => trivial

/-- A piece that needs a border, and one that begins with it. -/
theorem border (first : Lexes Ends cs ts) (last : Lexes Ends ds us) (ends : Ends ds) :
    Lexes Ends (cs ++ ds) (ts ++ us) :=
  first.append last fun _ after => ends.append after

theorem blank (h : Lexes follows cs ts) : Lexes follows (' ' :: cs) ts := by
  intro rest after
  rw [List.cons_append, tokens?_blank]
  exact h rest after

theorem nil : Lexes follows [] [] := by
  intro rest _
  simp

/-- The border itself can follow. -/
theorem beforeBlank (h : Lexes Ends cs ts) : Lexes Anything (cs ++ [' ']) ts := by
  intro rest _
  rw [List.append_assoc, List.singleton_append, h _ (ends_cons (Or.inl rfl)), tokens?_blank]

/-- Pieces in a row, each of which begins with a border. -/
theorem flatMap {α : Type} {text : α → List Char} {tokens : α → List Token} {as : List α}
    (each : ∀ a ∈ as, Lexes Ends (text a) (tokens a)) (ends : ∀ a ∈ as, Ends (text a)) :
    Lexes Ends (as.flatMap text) (as.flatMap tokens) := by
  have border : ∀ as : List α, (∀ a ∈ as, Ends (text a)) → Ends (as.flatMap text) := by
    intro as ends
    induction as with
    | nil => exact ends_nil
    | cons a as ih =>
      rw [List.forall_mem_cons] at ends
      exact ends.1.append (ih ends.2)
  induction as with
  | nil => exact .nil
  | cons a as ih =>
    rw [List.forall_mem_cons] at each ends
    exact each.1.border (ih each.2 ends.2) (border as ends.2)

end Lexes

theorem Token.WrittenAs.lexes {t : Token} {cs : List Char} (h : t.WrittenAs cs) :
    Lexes Ends cs [t] := by
  intro rest after
  cases cs with
  | nil => cases h [] ends_nil
  | cons c cs =>
    have next : Token.next? c (cs ++ rest) = some (t, rest) := h rest after
    exact tokens?_cons next (by simp)

section Words

variable {c : Char} {cs : List Char}

/-- A word is read up to its border. -/
theorem Token.written_word (start : isWordStart c = true)
    (inside : ∀ d ∈ cs, isWordChar d = true) :
    (Token.ofWord (c :: cs)).WrittenAs (c :: cs) := by
  intro rest after
  have stop : ∀ d ∈ rest.head?, isWordChar d = false := after.of_head? rfl rfl rfl
  have unquoted : c ≠ '\x27' := by
    rintro rfl
    exact absurd start (by decide)
  have notBlob : ¬((c = 'X' ∨ c = 'x') ∧ (cs ++ rest).head? = some '\x27') := by
    rintro ⟨-, next⟩
    cases cs with
    | nil => exact absurd (after _ next) (by decide)
    | cons d cs =>
      obtain rfl : d = '\x27' := Option.some.inj next
      exact absurd (inside _ List.mem_cons_self) (by decide)
  rw [List.cons_append, first?, next?, if_neg unquoted, if_neg notBlob, if_pos start,
    takeWhile_append_eq inside stop, dropWhile_append_eq inside stop]

theorem Token.written_keyword (k : Keyword) : (Token.keyword k).WrittenAs k.word.toList := by
  have read : Token.ofWord k.word.toList = .keyword k := by
    rw [Token.ofWord, Keyword.ofWord?_word]
  rw [← read]
  cases k <;> exact written_word (by decide) (List.all_eq_true.mp (by decide))

theorem Lexes.keyword (k : Keyword) : Lexes Ends k.word.toList [.keyword k] :=
  (Token.written_keyword k).lexes

end Words

section Quotes

/-- A quote that no other follows ends the string. -/
theorem Token.quoted?_closing {cs : List Char} (closed : cs.head? ≠ some '\x27') :
    quoted? ('\x27' :: cs) = some ([], cs) := by
  cases cs with
  | nil => rfl
  | cons c cs =>
    have other : c ≠ '\x27' := fun same => closed (congrArg some same)
    simp [quoted?, other]

theorem Token.quoted?_cons_of_ne {c : Char} (other : c ≠ '\x27') (cs : List Char) :
    quoted? (c :: cs) = (quoted? cs).map fun (s, tail) => (c :: s, tail) := by
  rw [quoted?.eq_def (c :: cs)]
  exact if_neg other

/-- A text with its quotes doubled is read back, and reading goes on behind it. -/
theorem quoted?_doubleQuotes_append (s rest : List Char) :
    Token.quoted? (doubleQuotes s ++ rest) =
      (Token.quoted? rest).map fun (t, tail) => (s ++ t, tail) := by
  induction s with
  | nil => simp [doubleQuotes]
  | cons c s ih =>
    by_cases quote : c = '\x27'
    · subst quote
      have step : doubleQuotes ('\x27' :: s) = '\x27' :: '\x27' :: doubleQuotes s := rfl
      rw [step, List.cons_append, List.cons_append, Token.quoted?, if_pos rfl]
      simp [ih, Function.comp_def]
    · have step : doubleQuotes (c :: s) = c :: doubleQuotes s := by
        simp [doubleQuotes, quote]
      rw [step, List.cons_append, Token.quoted?_cons_of_ne quote, ih]
      simp [Function.comp_def]

theorem quoted?_doubleQuotes (s : List Char) {rest : List Char}
    (closed : rest.head? ≠ some '\x27') :
    Token.quoted? (doubleQuotes s ++ '\x27' :: rest) = some (s, rest) := by
  simp [quoted?_doubleQuotes_append, Token.quoted?_closing closed]

theorem Token.written_text (s : String) :
    (Token.text s).WrittenAs ('\x27' :: (doubleQuotes s.toList ++ ['\x27'])) := by
  intro rest after
  rw [List.cons_append, List.append_assoc, List.singleton_append, first?, next?, if_pos rfl,
    quoted?_doubleQuotes s.toList (after.head?_ne (by decide))]
  exact congrArg (fun s => some (Token.text s, rest)) String.ofList_toList

/-- A blob ends at its quote, which is no hexadecimal digit. -/
theorem Token.written_blob {digits : List Char} {bytes : List UInt8} (inside : '\x27' ∉ digits)
    (value : Hex.toBytes? digits = some bytes) :
    (Token.blob bytes).WrittenAs ('X' :: '\x27' :: (digits ++ ['\x27'])) := by
  intro rest _
  have all : ∀ c ∈ digits, (c != '\x27') = true := fun c member =>
    bne_iff_ne.mpr fun same => inside (same ▸ member)
  have stop : ∀ c ∈ ('\x27' :: rest).head?, (c != '\x27') = false := by simp
  rw [List.cons_append, List.cons_append, List.append_assoc, List.singleton_append, first?, next?,
    if_neg (by decide), if_pos ⟨by decide, rfl⟩]
  simp only [List.tail_cons, Token.blob?, takeWhile_append_eq all stop,
    dropWhile_append_eq all stop, value]
  rfl

end Quotes

section Numbers

/-- A number in decimal notation: a sign, the whole part, and a point with the places behind it when
there are any. -/
def decimalChars (negative : Bool) (whole places : List Char) : List Char :=
  (if negative then ['-'] else []) ++ (whole ++ if places = [] then [] else '.' :: places)

variable {whole places rest : List Char}

theorem Token.fraction_of_ne {cs : List Char} (other : cs.head? ≠ some '.') :
    fraction cs = ([], cs) := by
  unfold fraction
  split
  case h_1 => exact absurd rfl other
  case h_2 => rfl

theorem fraction_eq (digits : ∀ c ∈ places, c.isDigit = true) (after : Ends rest) :
    Token.fraction ((if places = [] then [] else '.' :: places) ++ rest) = (places, rest) := by
  have stop : ∀ c ∈ rest.head?, c.isDigit = false := after.of_head? rfl rfl rfl
  split
  case isTrue empty =>
    subst empty
    exact Token.fraction_of_ne (after.head?_ne (by decide))
  case isFalse _ =>
    rw [List.cons_append, Token.fraction, takeWhile_append_eq digits stop,
      dropWhile_append_eq digits stop]

theorem number?_decimalChars (negative : Bool) (nonempty : whole ≠ [])
    (digits : ∀ c ∈ whole, c.isDigit = true) (digits' : ∀ c ∈ places, c.isDigit = true)
    (after : Ends rest) :
    Token.number? (decimalChars negative whole places ++ rest) =
      some (⟨negative, digitsValue (whole ++ places), places.length⟩, rest) := by
  have sign : splitSign (decimalChars negative whole places ++ rest) =
      (negative, whole ++ ((if places = [] then [] else '.' :: places) ++ rest)) := by
    rw [decimalChars, List.append_assoc, List.append_assoc]
    exact splitSign_append negative _ nonempty digits
  have stop : ∀ c ∈ ((if places = [] then [] else '.' :: places) ++ rest).head?,
      c.isDigit = false := by
    split
    · exact after.of_head? rfl rfl rfl
    · intro c member
      obtain rfl : '.' = c := Option.some.inj member
      decide
  have border : rest.head?.any isWordChar = false := after.any_head?_append rfl rfl rfl []
  simp only [Token.number?, sign, takeWhile_append_eq digits stop, dropWhile_append_eq digits stop,
    fraction_eq digits' after, nonempty, border, Bool.false_eq_true, or_self, if_false]

/-- No word begins with a digit. -/
theorem isWordStart_of_isDigit {c : Char} (digit : c.isDigit = true) : isWordStart c = false := by
  have small := (Char.isDigit_iff_toNat.mp digit).2
  have below : ∀ a : Char, '9'.toNat < a.toNat → decide (c.val ≥ a.val) = false :=
    fun a more => decide_eq_false fun le =>
      Nat.not_le.mpr (Nat.lt_of_le_of_lt small more) (UInt32.le_iff_toNat_le.mp le)
  have noLetter : c.isAlpha = false := by
    change (decide (c.val ≥ 'A'.val ∧ c.val ≤ 'Z'.val) ||
      (decide (c.val ≥ 'a'.val) && decide (c.val ≤ 'z'.val))) = false
    rw [Bool.decide_and, below 'A' (by decide), below 'a' (by decide), Bool.false_and,
      Bool.false_and, Bool.or_false]
  have noScore : c ≠ '_' := by
    rintro rfl
    exact absurd digit (by decide)
  simp [isWordStart, noLetter, noScore]

/-- What a number begins with begins nothing else. -/
theorem next?_number {c : Char} {cs : List Char} (first : c.isDigit = true ∨ c = '-') :
    Token.next? c cs = (Token.number? (c :: cs)).map fun (n, tail) => (.number n, tail) := by
  have unquoted : c ≠ '\x27' := by
    rintro rfl
    exact absurd first (by decide)
  have notBlob : ¬((c = 'X' ∨ c = 'x') ∧ cs.head? = some '\x27') := by
    rintro ⟨rfl | rfl, -⟩ <;> exact absurd first (by decide)
  have notWord : isWordStart c = false := by
    rcases first with digit | rfl
    · exact isWordStart_of_isDigit digit
    · decide
  rw [Token.next?, if_neg unquoted, if_neg notBlob, if_neg (by simp [notWord]), if_pos]
  exact first.imp_right Or.inl

theorem Token.written_number (negative : Bool) (nonempty : whole ≠ [])
    (digits : ∀ c ∈ whole, c.isDigit = true) (digits' : ∀ c ∈ places, c.isDigit = true) :
    (Token.number ⟨negative, digitsValue (whole ++ places), places.length⟩).WrittenAs
      (decimalChars negative whole places) := by
  intro rest after
  have read := number?_decimalChars negative nonempty digits digits' after
  obtain ⟨c, cs, shape, first⟩ : ∃ c cs, decimalChars negative whole places = c :: cs ∧
      (c.isDigit = true ∨ c = '-') := by
    cases negative with
    | true => exact ⟨'-', _, rfl, Or.inr rfl⟩
    | false =>
      cases whole with
      | nil => exact absurd rfl nonempty
      | cons c whole => exact ⟨c, _, rfl, Or.inl (digits c List.mem_cons_self)⟩
  rw [shape, List.cons_append] at read ⊢
  rw [first?, next?_number first, read]
  rfl

end Numbers

section Punctuation

theorem Lexes.opening : Lexes Anything ['('] [.opening] :=
  fun _ _ => tokens?_cons (by rfl) (Nat.le_refl _)

theorem Lexes.closing : Lexes Anything [')'] [.closing] :=
  fun _ _ => tokens?_cons (by rfl) (Nat.le_refl _)

theorem Lexes.comma : Lexes Anything [','] [.comma] :=
  fun _ _ => tokens?_cons (by rfl) (Nat.le_refl _)

/-- The sign of a relation before a blank. -/
theorem Lexes.relation (r : Relation) : Lexes Anything (r.sign.toList ++ [' ']) [.relation r] := by
  have single : ∀ {c : Char},
      (∀ rest, Token.next? c (' ' :: rest) = some (.relation r, ' ' :: rest)) →
      Lexes Anything [c, ' '] [.relation r] := by
    intro c next rest _
    refine (tokens?_cons (next rest) (Nat.le_refl _)).trans ?_
    rw [tokens?_blank]
    rfl
  have double : ∀ {c d : Char},
      (∀ rest, Token.next? c (d :: rest) = some (.relation r, rest)) →
      Lexes Anything [c, d, ' '] [.relation r] := by
    intro c d next rest _
    refine (tokens?_cons (next (' ' :: rest)) (Nat.le_succ _)).trans ?_
    rw [tokens?_blank]
    rfl
  cases r
  case equal | greater | less => exact single fun _ => by rfl
  case unequal | greaterOrEqual | lessOrEqual => exact double fun _ => by rfl

end Punctuation

end TypedSql.Sql
