import Mathlib.Data.List.Infix
import TypedSql.Proofs.Text.Identifier
import TypedSql.Proofs.Text.Pieces

/-! The lexemes of SQL definitions and how they are read from a text: words, numbers, names between
backticks and texts between double quotes, in both of which a doubled delimiter stands for one, and
punctuation. Blanks may stand anywhere between them. Two signs in a row would begin a comment; a text
that has one, or any other character outside names and quoted texts, is not read at all. -/
namespace TypedSql.Sql

open Text

inductive Lexeme where
  | word (s : String)
  /-- A run with a sign or a point in it. -/
  | number (s : String)
  | name (s : String)
  | quoted (s : String)
  | opening
  | closing
  | comma
  | semicolon
  deriving DecidableEq, Repr

/-- Letters, digits and underscores. All that is not ASCII counts as a letter. -/
def isNameChar (c : Char) : Bool := c.isAlphanum || c == '_' || 0x80 ≤ c.toNat

/-- What a word or a number goes on with. -/
def isRunChar (c : Char) : Bool := isNameChar c || c == '+' || c == '-' || c == '.'

/-- A run that is one word, and begins no comment. -/
def IsWord (s : String) : Prop := s.toList ≠ [] ∧ ∀ c ∈ s.toList, isNameChar c = true

/-- A run that begins no comment. -/
def IsRun (s : String) : Prop :=
  s.toList ≠ [] ∧ (∀ c ∈ s.toList, isRunChar c = true) ∧ ¬['-', '-'] <:+: s.toList

instance (s : String) : Decidable (IsWord s) :=
  decidable_of_iff (s.toList ≠ [] ∧ s.toList.all isNameChar = true)
    (by rw [List.all_eq_true, IsWord])

instance (s : String) : Decidable (IsRun s) :=
  decidable_of_iff (s.toList ≠ [] ∧ s.toList.all isRunChar = true ∧ ¬['-', '-'] <:+: s.toList)
    (by rw [List.all_eq_true, IsRun])

namespace Lexeme

def ofRun (s : String) : Lexeme := if s.toList.all isNameChar then .word s else .number s

def next? (c : Char) (rest : List Char) : Option (Lexeme × List Char) :=
  if isRunChar c then
    let run := c :: rest.takeWhile isRunChar
    if ['-', '-'] <:+: run then none
    else some (ofRun (String.ofList run), rest.dropWhile isRunChar)
  else if c = '\x60' then
    (Delimiters.inside? '\x60' rest).map fun (s, tail) => (.name (String.ofList s), tail)
  else if c = '"' then
    (Delimiters.inside? '"' rest).map fun (s, tail) => (.quoted (String.ofList s), tail)
  else if c = '(' then some (.opening, rest)
  else if c = ')' then some (.closing, rest)
  else if c = ',' then some (.comma, rest)
  else if c = ';' then some (.semicolon, rest)
  else none

end Lexeme

def lexemes? : List Char → Option (List Lexeme)
  | [] => some []
  | c :: rest =>
    if c.isWhitespace then lexemes? rest
    else
      match Lexeme.next? c rest with
      | none => none
      | some (lexeme, tail) =>
        if tail.length ≤ rest.length then (lexemes? tail).map (lexeme :: ·) else none
termination_by cs => cs.length

section Reading

variable {c : Char} {cs rest : List Char} {lexeme : Lexeme}

theorem lexemes?_nil : lexemes? [] = some [] := by
  rw [lexemes?]

theorem lexemes?_blank (white : c.isWhitespace = true) : lexemes? (c :: rest) = lexemes? rest := by
  rw [lexemes?, if_pos white]

/-- No lexeme begins with a blank. -/
theorem Lexeme.solid_of_next? {read : Lexeme × List Char} (next : next? c cs = some read) :
    c.isWhitespace = false := by
  rw [Bool.eq_false_iff]
  intro white
  simp only [Char.isWhitespace, Bool.or_eq_true, decide_eq_true_eq] at white
  rcases white with ((rfl | rfl) | rfl) | rfl <;> cases next

/-- One lexeme, and what is read behind it. -/
theorem lexemes?_cons (next : Lexeme.next? c cs = some (lexeme, rest))
    (shorter : rest.length ≤ cs.length) :
    lexemes? (c :: cs) = (lexemes? rest).map (lexeme :: ·) := by
  rw [lexemes?, if_neg (by simp [Lexeme.solid_of_next? next]), next]
  simp only [shorter, if_true]

end Reading

/-- Characters that end whatever stands in front of them. -/
def isBorder (c : Char) : Bool :=
  c == ' ' || c == '\n' || c == '(' || c == ')' || c == ',' || c == ';'

/-- The text is over, or goes on with a border. -/
def Bordered (cs : List Char) : Prop := ∀ c ∈ cs.head?, isBorder c = true

namespace Bordered

variable {cs rest : List Char}

theorem nil : Bordered [] := nofun

theorem cons {c : Char} (border : isBorder c = true) : Bordered (c :: cs) := by
  intro d member
  obtain rfl : c = d := Option.some.inj member
  exact border

theorem append (h : Bordered cs) (after : Bordered rest) : Bordered (cs ++ rest) := by
  cases cs with
  | nil => exact after
  | cons c cs => exact cons (h c rfl)

theorem flatMap {α : Type} {text : α → List Char} {as : List α}
    (each : ∀ a ∈ as, Bordered (text a)) : Bordered (as.flatMap text) := by
  induction as with
  | nil => exact nil
  | cons a as ih =>
    rw [List.forall_mem_cons] at each
    exact each.1.append (ih each.2)

theorem of_head? (h : Bordered cs) {p : Char → Bool}
    (apart : ∀ c, isBorder c = true → p c = false) : ∀ c ∈ cs.head?, p c = false :=
  fun c member => apart c (h c member)

theorem head?_ne (h : Bordered cs) {d : Char} (inside : isBorder d = false) :
    cs.head? ≠ some d := by
  intro same
  rw [h d same] at inside
  cases inside

end Bordered

theorem isRunChar_of_isBorder (c : Char) (border : isBorder c = true) : isRunChar c = false := by
  simp only [isBorder, Bool.or_eq_true, beq_iff_eq] at border
  rcases border with ((((rfl | rfl) | rfl) | rfl) | rfl) | rfl <;> decide

/-- In front of a border, the text is read as these lexemes and no further. -/
def Spells (cs : List Char) (ls : List Lexeme) : Prop :=
  ∀ rest, Bordered rest → lexemes? (cs ++ rest) = (lexemes? rest).map (ls ++ ·)

namespace Spells

variable {c : Char} {cs ds : List Char} {ls ms : List Lexeme} {s : String}

theorem lexemes?_eq (h : Spells cs ls) : lexemes? cs = some ls := by
  have read := h [] .nil
  rw [List.append_nil, lexemes?_nil] at read
  simpa using read

theorem nil : Spells [] [] := by
  intro rest _
  simp

theorem append (first : Spells cs ls) (last : Spells ds ms) (border : Bordered ds) :
    Spells (cs ++ ds) (ls ++ ms) := by
  intro rest after
  rw [List.append_assoc, first _ (border.append after), last rest after, Option.map_map]
  simp only [Function.comp_def, List.append_assoc]

theorem blank_iff (white : c.isWhitespace = true) : Spells (c :: cs) ls ↔ Spells cs ls := by
  simp only [Spells, List.cons_append, lexemes?_blank white]

theorem blank (h : Spells cs ls) : Spells (' ' :: cs) ls := (blank_iff rfl).mpr h

/-- A sign needs no border behind it. -/
theorem sign {lexeme : Lexeme} (next : ∀ rest, Lexeme.next? c rest = some (lexeme, rest))
    (h : Spells cs ls) : Spells (c :: cs) (lexeme :: ls) := by
  intro rest after
  rw [List.cons_append, lexemes?_cons (next (cs ++ rest)) (Nat.le_refl _), h rest after,
    Option.map_map]
  rfl

/-- Pieces in a row, each of which begins with a border. -/
theorem flatMap {α : Type} {text : α → List Char} {lexemes : α → List Lexeme} {as : List α}
    (each : ∀ a ∈ as, Spells (text a) (lexemes a)) (border : ∀ a ∈ as, Bordered (text a)) :
    Spells (as.flatMap text) (as.flatMap lexemes) := by
  induction as with
  | nil => exact nil
  | cons a as ih =>
    rw [List.forall_mem_cons] at each border
    exact each.1.append (ih each.2 border.2) (.flatMap border.2)

/-- Pieces with commas between them, and blanks behind the commas. -/
theorem listed {α : Type} {blanks : List Char} {text : α → List Char} {lexemes : α → List Lexeme}
    {as : List α} (white : blanks.all Char.isWhitespace = true)
    (each : ∀ a ∈ as, Spells (text a) (lexemes a)) :
    Spells ((',' :: blanks).intercalate (as.map text))
      ([Lexeme.comma].intercalate (as.map lexemes)) := by
  have spaced : ∀ a ∈ as, Spells (blanks ++ text a) (lexemes a) := by
    intro a member
    induction blanks with
    | nil => exact each a member
    | cons c blanks ih =>
      rw [List.all_cons, Bool.and_eq_true] at white
      exact (blank_iff white.1).mpr (ih white.2)
  cases as with
  | nil => exact nil
  | cons a as =>
    rw [List.map_cons, List.map_cons, intercalate_cons, intercalate_cons, List.flatMap_map,
      List.flatMap_map]
    refine (each a List.mem_cons_self).append (flatMap (fun b member => ?_) fun b _ => ?_)
      (.flatMap fun b _ => ?_)
    · exact sign (fun _ => rfl) (spaced b (List.mem_cons_of_mem a member))
    · exact .cons rfl
    · exact .cons rfl

theorem run (h : IsRun s) : Spells s.toList [.ofRun s] := by
  obtain ⟨nonempty, inside, plain⟩ := h
  intro rest after
  have stop := after.of_head? isRunChar_of_isBorder
  have whole : String.ofList s.toList = s := String.ofList_toList
  cases chars : s.toList with
  | nil => exact absurd chars nonempty
  | cons c cs =>
    rw [chars] at inside plain whole
    rw [List.forall_mem_cons] at inside
    have next : Lexeme.next? c (cs ++ rest) = some (.ofRun s, rest) := by
      simp only [Lexeme.next?, inside.1, if_true, takeWhile_append_eq inside.2 stop,
        dropWhile_append_eq inside.2 stop, plain, if_false, whole]
    exact lexemes?_cons next (by simp)

theorem word (h : IsWord s) : Spells s.toList [.word s] := by
  obtain ⟨nonempty, inside⟩ := h
  have same : Lexeme.ofRun s = .word s := if_pos (List.all_eq_true.mpr inside)
  rw [← same]
  refine run ⟨nonempty, fun c member => ?_, fun comment => ?_⟩
  · simp [isRunChar, inside c member]
  · exact absurd (inside '-' (comment.subset List.mem_cons_self)) (by decide)

/-- Words with a blank before each. -/
theorem words {ws : List String} (each : ∀ w ∈ ws, IsWord w) :
    Spells (ws.flatMap fun w => ' ' :: w.toList) (ws.map .word) := by
  rw [← List.flatMap_singleton' (ws.map Lexeme.word), List.flatMap_map]
  exact flatMap (fun w member => (word (each w member)).blank) fun w _ => .cons rfl

end Spells

/-- A text between two delimiters of its kind, with none of them inside. -/
theorem Spells.delimited {closing : Char} {lexeme : String → Lexeme} {s : String}
    (next : ∀ rest, Lexeme.next? closing rest =
      (Delimiters.inside? closing rest).map fun (s, tail) => (lexeme (String.ofList s), tail))
    (inside : isBorder closing = false) (plain : closing ∉ s.toList) :
    Spells (closing :: (s.toList ++ [closing])) [lexeme s] := by
  intro rest after
  have read : Lexeme.next? closing (s.toList ++ closing :: rest) = some (lexeme s, rest) := by
    rw [next, Delimiters.inside?_append plain (after.head?_ne inside), Option.map_some]
    simp only [String.ofList_toList]
  have shorter : rest.length ≤ (s.toList ++ closing :: rest).length := by
    rw [List.length_append, List.length_cons]
    omega
  rw [List.cons_append, List.append_assoc, List.singleton_append]
  exact lexemes?_cons read shorter

theorem Spells.name {s : String} (plain : '\x60' ∉ s.toList) :
    Spells ('\x60' :: (s.toList ++ ['\x60'])) [.name s] :=
  delimited (fun _ => rfl) rfl plain

theorem Spells.quoted {s : String} (plain : '"' ∉ s.toList) :
    Spells ('"' :: (s.toList ++ ['"'])) [.quoted s] :=
  delimited (fun _ => rfl) rfl plain

end TypedSql.Sql
