import TypedSql.Proofs.Text.Quoted

/-! Where blanks stand in SQL. Outside quotes a blank follows something, and something other than a
closing parenthesis follows it. A text in which a part is missing between two others breaks this
rule, whatever is written between quotes. -/
namespace TypedSql.Sql

open Text

/-- What comes right before the next character. -/
inductive Spot where
  /-- Nothing, or a blank. -/
  | gap
  /-- An opening parenthesis. -/
  | opened
  /-- The end of something. -/
  | solid
  /-- Something between quotes. -/
  | quoted
  deriving DecidableEq, Repr

namespace Spot

/-- The spot behind a character that may stand at this one. -/
def next (s : Spot) (c : Char) : Option Spot :=
  if s = .quoted then some (if c = '\x27' then .solid else .quoted)
  else if c = '\x27' then some .quoted
  else if c = '(' then some .opened
  else if c = ' ' then if s = .solid then some .gap else none
  else if c = ')' then if s = .gap then none else some .solid
  else some .solid

/-- The spot behind a text that may stand at this one. -/
def after (s : Spot) (cs : List Char) : Option Spot := cs.foldlM next s

theorem after_cons (s : Spot) (c : Char) (cs : List Char) :
    s.after (c :: cs) = (s.next c).bind (·.after cs) := rfl

theorem after_append (s : Spot) (cs ds : List Char) :
    s.after (cs ++ ds) = (s.after cs).bind (·.after ds) :=
  List.foldlM_append

theorem after_append_of_eq_some {s t : Spot} {cs : List Char} (h : s.after cs = some t)
    (ds : List Char) : s.after (cs ++ ds) = t.after ds := by
  rw [after_append, h, Option.bind_some]

theorem after_append_of_eq_none {s : Spot} {cs : List Char} (h : s.after cs = none)
    (ds : List Char) : s.after (cs ++ ds) = none := by
  rw [after_append, h, Option.bind_none]

/-- Without a quote in it, what stands between quotes goes on. -/
theorem after_of_notMem {cs : List Char} (inside : '\x27' ∉ cs) :
    quoted.after cs = some quoted := by
  induction cs with
  | nil => rfl
  | cons c cs ih =>
    rw [List.mem_cons, not_or] at inside
    have step : quoted.next c = some quoted := by simp [next, Ne.symm inside.1]
    rw [after_cons, step, Option.bind_some]
    exact ih inside.2

theorem after_doubleQuotes (cs : List Char) : quoted.after (doubleQuotes cs) = some quoted := by
  induction cs with
  | nil => rfl
  | cons c cs ih =>
    have split : doubleQuotes (c :: cs) =
        (if c = '\x27' then ['\x27', '\x27'] else [c]) ++ doubleQuotes cs := rfl
    have step : quoted.after (if c = '\x27' then ['\x27', '\x27'] else [c]) = some quoted := by
      split
      case isTrue => rfl
      case isFalse other => exact after_of_notMem (by simpa using Ne.symm other)
    rw [split, after_append_of_eq_some step]
    exact ih

end Spot

/-- Characters that are no blank, no parenthesis and no quote. -/
def isWordy (c : Char) : Bool := c != ' ' && c != '(' && c != ')' && c != '\x27'

/-- A text that may stand anywhere outside quotes, with something at its end. -/
def Solid (cs : List Char) : Prop := ∀ s, s ≠ .quoted → Spot.after s cs = some .solid

namespace Solid

variable {cs ds : List Char}

theorem next_of_isWordy {c : Char} (wordy : isWordy c = true) {s : Spot} (outside : s ≠ .quoted) :
    s.next c = some .solid := by
  simp only [isWordy, Bool.and_eq_true, bne_iff_ne] at wordy
  simp [Spot.next, outside, wordy]

theorem word (nonempty : cs ≠ []) (wordy : ∀ c ∈ cs, isWordy c = true) : Solid cs := by
  induction cs with
  | nil => exact absurd rfl nonempty
  | cons c cs ih =>
    rw [List.forall_mem_cons] at wordy
    intro s outside
    rw [Spot.after_cons, next_of_isWordy wordy.1 outside, Option.bind_some]
    cases cs with
    | nil => rfl
    | cons d cs => exact ih (List.cons_ne_nil d cs) wordy.2 .solid nofun

theorem append (first : Solid cs) (last : Spot.solid.after ds = some .solid) :
    Solid (cs ++ ds) := by
  intro s outside
  rw [Spot.after_append_of_eq_some (first s outside), last]

/-- A solid text behind something that leads to a spot outside quotes. -/
theorem after_append {s t : Spot} (h : s.after cs = some t) (outside : t ≠ .quoted)
    (last : Solid ds) : s.after (cs ++ ds) = some .solid := by
  rw [Spot.after_append_of_eq_some h, last t outside]

/-- A text between quotes, behind other characters of its kind or nothing. -/
theorem quote (front : ∀ c ∈ cs, isWordy c = true) (inside : Spot.quoted.after ds = some .quoted) :
    Solid (cs ++ '\x27' :: (ds ++ ['\x27'])) := by
  have opening : ∀ s, s ≠ .quoted → Spot.after s ('\x27' :: (ds ++ ['\x27'])) = some .solid := by
    intro s outside
    have step : s.next '\x27' = some .quoted := by simp [Spot.next, outside]
    rw [Spot.after_cons, step, Option.bind_some, Spot.after_append_of_eq_some inside]
    rfl
  cases cs with
  | nil => exact opening
  | cons c cs => exact (word (List.cons_ne_nil c cs) front).append (opening .solid nofun)

end Solid

end TypedSql.Sql
