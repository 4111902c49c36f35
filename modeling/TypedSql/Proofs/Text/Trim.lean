import Mathlib.Data.List.DropRight
import TypedSql.Text.Blank

/-! What is left of a text that has lost the unwanted characters on its two ends. -/
namespace TypedSql.Text

variable {p : Char → Bool} {cs : List Char}

/-- Nothing is left of a text of unwanted characters, and of no other text. -/
theorem trimBoth_eq_nil_iff : trimBoth p cs = [] ↔ ∀ c ∈ cs, p c = true := by
  have tail : (∀ c ∈ cs.dropWhile p, p c = true) ↔ ∀ c ∈ cs, p c = true := by
    constructor
    · intro rest c member
      rw [← List.takeWhile_append_dropWhile (p := p) (l := cs), List.mem_append] at member
      exact member.elim List.mem_takeWhile_imp (rest c)
    · intro all c member
      exact all c ((List.dropWhile_sublist p).subset member)
  rw [trimBoth, List.reverse_eq_nil_iff, List.dropWhile_eq_nil_iff, ← tail]
  simp only [List.mem_reverse]

theorem head?_dropWhile (cs : List Char) : ∀ c ∈ (cs.dropWhile p).head?, p c = false := by
  intro c first
  have outside := List.head?_dropWhile_not p cs
  rwa [Option.mem_def.mp first] at outside

theorem dropWhile_eq_self (outside : ∀ c ∈ cs.head?, p c = false) : cs.dropWhile p = cs := by
  cases cs with
  | nil => rfl
  | cons c rest => exact List.dropWhile_cons_of_neg (by simp [outside c rfl])

theorem head?_trimBoth (cs : List Char) : ∀ c ∈ (trimBoth p cs).head?, p c = false := by
  intro c first
  obtain ⟨lost, split⟩ : trimBoth p cs <+: cs.dropWhile p := List.rdropWhile_prefix p (cs.dropWhile p)
  apply head?_dropWhile cs c
  rw [← split, List.head?_append, Option.mem_def.mp first]
  rfl

theorem getLast?_trimBoth (cs : List Char) : ∀ c ∈ (trimBoth p cs).getLast?, p c = false := by
  rw [trimBoth, List.getLast?_reverse]
  exact head?_dropWhile _

/-- A text keeps both ends if and only if neither is unwanted. -/
theorem trimBoth_eq_self_iff :
    trimBoth p cs = cs ↔ (∀ c ∈ cs.head?, p c = false) ∧ ∀ c ∈ cs.getLast?, p c = false := by
  constructor
  · intro same
    rw [← same]
    exact ⟨head?_trimBoth cs, getLast?_trimBoth cs⟩
  · rintro ⟨first, last⟩
    refine trimBoth_eq_self (dropWhile_eq_self first) (dropWhile_eq_self ?_)
    rwa [List.head?_reverse]

/-- The core is the text between two runs of unwanted characters, and no run goes on into it. -/
structure TrimsTo (p : Char → Bool) (cs core : List Char) : Prop where
  split : ∃ front back, cs = front ++ core ++ back ∧
    (∀ c ∈ front, p c = true) ∧ ∀ c ∈ back, p c = true
  first : ∀ c ∈ core.head?, p c = false
  last : ∀ c ∈ core.getLast?, p c = false

theorem exists_append_trimBoth (cs : List Char) :
    ∃ front back, cs = front ++ trimBoth p cs ++ back ∧
      (∀ c ∈ front, p c = true) ∧ ∀ c ∈ back, p c = true := by
  refine ⟨cs.takeWhile p, ((cs.dropWhile p).reverse.takeWhile p).reverse, ?_, ?_, ?_⟩
  · rw [trimBoth, List.append_assoc, ← List.reverse_append, List.takeWhile_append_dropWhile,
      List.reverse_reverse, List.takeWhile_append_dropWhile]
  · exact fun c => List.mem_takeWhile_imp
  · exact fun c member => List.mem_takeWhile_imp (List.mem_reverse.mp member)

/-- Unwanted characters around a text do not matter. -/
theorem trimBoth_append {front core back : List Char} (before : ∀ c ∈ front, p c = true)
    (after : ∀ c ∈ back, p c = true) : trimBoth p (front ++ core ++ back) = trimBoth p core := by
  rw [List.append_assoc, trimBoth, trimBoth, List.dropWhile_append_of_pos before]
  by_cases nothing : ∀ c ∈ core, p c = true
  · rw [List.dropWhile_append_of_pos nothing, List.dropWhile_eq_nil_iff.mpr nothing,
      List.dropWhile_eq_nil_iff.mpr after]
  · have left : core.dropWhile p ≠ [] := fun none => nothing (List.dropWhile_eq_nil_iff.mp none)
    rw [List.dropWhile_append, if_neg (by simpa using left), List.reverse_append,
      List.dropWhile_append_of_pos fun c member => after c (List.mem_reverse.mp member)]

/-- What is left is the only core that a text has. -/
theorem trimBoth_eq_iff {core : List Char} : trimBoth p cs = core ↔ TrimsTo p cs core := by
  constructor
  · rintro rfl
    exact ⟨exists_append_trimBoth cs, head?_trimBoth cs, getLast?_trimBoth cs⟩
  · rintro ⟨⟨front, back, rfl, before, after⟩, first, last⟩
    rw [trimBoth_append before after]
    exact trimBoth_eq_self_iff.mpr ⟨first, last⟩

/-- Trimming a second time takes nothing. -/
theorem trimBoth_trimBoth (cs : List Char) : trimBoth p (trimBoth p cs) = trimBoth p cs :=
  trimBoth_eq_self_iff.mpr ⟨head?_trimBoth cs, getLast?_trimBoth cs⟩

end TypedSql.Text
