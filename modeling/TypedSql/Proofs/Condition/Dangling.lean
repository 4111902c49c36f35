import TypedSql.Proofs.Condition.Shape

/-! Connectives with nothing beside them. Where a comparison writes nothing, the connective next to it
is written all the same. Among several comparisons one such comparison is enough for the text to be
no condition, wherever it stands, and without one the text is a condition. -/
namespace TypedSql

open Sql

section Borders

/-- A text that is not allowed outside quotes, or that leads nowhere else. -/
def Sql.Stuck (cs : List Char) : Prop := ∀ s, s ≠ .quoted → ∀ t, Spot.after s cs = some t → t = s

theorem Sql.stuck_nil : Stuck [] := fun _ _ _ same => (Option.some.inj same).symm

/-- A connective must stand behind something. -/
theorem after_separator_of_ne {s : Spot} (outside : s ≠ .quoted) (other : s ≠ .solid)
    (k : Connective) : s.after k.separator.toList = none := by
  cases s with
  | quoted => exact absurd rfl outside
  | solid => exact absurd rfl other
  | gap | opened => cases k <;> rfl

variable {α : Type} {writes : α → String → Prop} {connective : α → Connective}
  {complete : α → Bool} {item : String → Prop} {as : List α}

/-- Behind an item, complete parts and their connectives make a chain. -/
theorem WritesRest.chain {rest : String} (others : WritesRest writes connective as rest)
    (items : ∀ a ∈ as, ∀ text, writes a text → item text) {text : String} (first : item text) :
    IsChain item (text ++ rest) := by
  induction others generalizing text with
  | nil =>
    rw [String.append_empty]
    exact .single first
  | @cons a as next rest written _ ih =>
    rw [List.forall_mem_cons] at items
    have tail := ih items.2 (items.1 next written)
    rw [String.append_assoc, ← String.append_assoc]
    exact .link (connective a) first tail

theorem WritesRest.after_of_ne {rest : String} (others : WritesRest writes connective as rest)
    (nonempty : as ≠ []) {s : Spot} (outside : s ≠ .quoted) (other : s ≠ .solid) :
    s.after rest.toList = none := by
  cases others with
  | nil => exact absurd rfl nonempty
  | @cons a =>
    rw [String.append_assoc, String.toList_append]
    exact Spot.after_append_of_eq_none (after_separator_of_ne outside other (connective a)) _

/-- Parts that are all complete end in something; with another one among them they end in a gap, if
they are allowed at all. -/
theorem WritesRest.after_eq {rest : String} (others : WritesRest writes connective as rest)
    (solid : ∀ a text, complete a = true → writes a text → Solid text.toList)
    (stuck : ∀ a text, complete a = false → writes a text → Stuck text.toList) {s : Spot}
    (allowed : Spot.solid.after rest.toList = some s) :
    s = if as.all complete then .solid else .gap := by
  induction others generalizing s with
  | nil => exact (Option.some.inj allowed).symm
  | @cons a as next rest written others ih =>
    rw [String.append_assoc, String.toList_append, String.toList_append,
      Spot.after_append_of_eq_some (after_separator _), Spot.after_append,
      Option.bind_eq_some_iff] at allowed
    obtain ⟨t, behind, allowed⟩ := allowed
    rw [List.all_cons]
    cases whole : complete a with
    | true =>
      rw [solid a next whole written .gap nofun] at behind
      obtain rfl := Option.some.inj behind
      exact ih allowed
    | false =>
      -- The connective of `a` still waits for something, so the next one may not follow.
      obtain rfl := stuck a next whole written .gap nofun t behind
      cases as with
      | nil =>
        cases others
        exact (Option.some.inj allowed).symm
      | cons b bs =>
        rw [others.after_of_ne (s := .gap) (List.cons_ne_nil b bs) nofun nofun] at allowed
        cases allowed

/-- The same with a part in front that has no connective. -/
theorem WritesRest.after_row {a : α} {text rest : String} (first : writes a text)
    (others : WritesRest writes connective as rest) (several : as ≠ [])
    (solid : ∀ a text, complete a = true → writes a text → Solid text.toList)
    (stuck : ∀ a text, complete a = false → writes a text → Stuck text.toList)
    (incomplete : (a :: as).all complete = false) {s : Spot}
    (allowed : Spot.opened.after (text ++ rest).toList = some s) : s = .gap := by
  rw [String.toList_append, Spot.after_append, Option.bind_eq_some_iff] at allowed
  obtain ⟨t, behind, allowed⟩ := allowed
  cases whole : complete a with
  | true =>
    rw [solid a text whole first .opened nofun] at behind
    obtain rfl := Option.some.inj behind
    rw [List.all_cons, whole, Bool.true_and] at incomplete
    rw [others.after_eq solid stuck allowed, incomplete]
    rfl
  | false =>
    obtain rfl := stuck a text whole first .opened nofun t behind
    rw [others.after_of_ne (s := .opened) several nofun nofun] at allowed
    cases allowed

end Borders

namespace Comparison.Writes

variable {c : Comparison} {text : String}

theorem isComparison (written : c.Writes text) (complete : c.isComplete = true) :
    IsComparison text := by
  cases written with
  | nothing vacuous => simp [isComplete, vacuous] at complete
  | complete _ complete => exact complete

theorem eq_empty (written : c.Writes text) (incomplete : c.isComplete = false) : text = "" := by
  cases written with
  | nothing => rfl
  | complete present => simp [isComplete, present] at incomplete

theorem solid (c : Comparison) (text : String) (complete : c.isComplete = true)
    (written : c.Writes text) : Solid text.toList :=
  (written.isComparison complete).solid

theorem stuck (c : Comparison) (text : String) (incomplete : c.isComplete = false)
    (written : c.Writes text) : Stuck text.toList := by
  rw [written.eq_empty incomplete]
  exact stuck_nil

end Comparison.Writes

namespace Group.Writes

variable {g : Group} {text : String}

theorem isItem (written : g.Writes text) (complete : g.isComplete = true) : IsItem text := by
  rw [isComplete, comparisons, List.all_cons, Bool.and_eq_true, List.all_eq_true] at complete
  cases written with
  | alone _ first => exact .comparison (first.isComparison complete.1)
  | joined _ first others =>
    apply IsItem.group
    exact others.chain (fun c member text written => written.isComparison (complete.2 c member))
      (first.isComparison complete.1)

/-- The parenthesis behind a gap is not allowed. -/
theorem after_of_several (written : g.Writes text) (several : g.rest ≠ [])
    (incomplete : g.isComplete = false) {s : Spot} (outside : s ≠ .quoted) :
    s.after text.toList = none := by
  cases written with
  | alone single => exact absurd single several
  | @joined text rest _ first others =>
    rw [String.append_assoc, String.toList_append,
      Spot.after_append_of_eq_some (after_opening outside), String.toList_append, Spot.after_append]
    cases inside : Spot.opened.after (text ++ rest).toList with
    | none => rfl
    | some t =>
      obtain rfl := WritesRest.after_row first others several Comparison.Writes.solid
        Comparison.Writes.stuck incomplete inside
      rfl

theorem solid (g : Group) (text : String) (complete : g.isComplete = true)
    (written : g.Writes text) : Solid text.toList :=
  (written.isItem complete).solid

theorem stuck (g : Group) (text : String) (incomplete : g.isComplete = false)
    (written : g.Writes text) : Stuck text.toList := by
  by_cases several : g.rest = []
  · cases written with
    | joined more => exact absurd several more
    | alone _ first =>
      refine first.stuck _ _ ?_
      simpa [isComplete, comparisons, several] using incomplete
  · intro s outside t allowed
    rw [written.after_of_several several incomplete outside] at allowed
    cases allowed

end Group.Writes

namespace Condition

variable {p : Condition} {text : String}

/-- Nothing, or a condition. -/
def IsWellFormed (text : String) : Prop := text = "" ∨ IsCondition text

theorem Writes.isWellFormed (written : p.Writes text)
    (complete : ∀ c ∈ p.comparisons, c.isComplete = true) : IsWellFormed text := by
  have each : ∀ g ∈ p.groups, g.isComplete = true := fun g member =>
    List.all_eq_true.mpr fun c among => complete c (List.mem_flatMap.mpr ⟨g, member, among⟩)
  cases written with
  | nothing => exact Or.inl rfl
  | groups groups first others =>
    rw [groups, List.forall_mem_cons] at each
    exact Or.inr (others.chain (fun g member text written => written.isItem (each.2 g member))
      (first.isItem each.1))

/-- One comparison by itself is complete or not there at all. -/
theorem Writes.isWellFormed_of_short (written : p.Writes text) (short : p.comparisons.length ≤ 1) :
    IsWellFormed text := by
  cases written with
  | nothing => exact Or.inl rfl
  | @groups g gs text rest groups first others =>
    rw [comparisons, groups, List.flatMap_cons, Group.comparisons, List.length_append,
      List.length_cons] at short
    have single : g.rest = [] := List.length_eq_zero_iff.mp (by omega)
    have last : gs = [] := by
      cases gs with
      | nil => rfl
      | cons h hs =>
        rw [List.flatMap_cons, Group.comparisons, List.length_append, List.length_cons] at short
        omega
    subst last
    cases others
    rw [String.append_empty]
    cases first with
    | joined several => exact absurd single several
    | alone _ first =>
      cases first with
      | nothing => exact Or.inl rfl
      | complete _ complete => exact Or.inr (.single (.comparison complete))

/-- Among several comparisons an incomplete one leaves a connective or a parenthesis with nothing
in front of it, or it is the last one and the text ends in a connective. -/
theorem Writes.after_eq (written : p.Writes text) (several : 1 < p.comparisons.length)
    (incomplete : p.comparisons.all Comparison.isComplete = false) {s : Spot}
    (allowed : Spot.opened.after text.toList = some s) : s = .gap := by
  rw [comparisons] at several incomplete
  cases written with
  | nothing empty => simp [empty] at several
  | @groups g gs text rest groups first others =>
    rw [groups, List.all_flatMap] at incomplete
    cases gs with
    | cons h hs =>
      exact WritesRest.after_row first others (List.cons_ne_nil h hs) Group.Writes.solid
        Group.Writes.stuck incomplete allowed
    | nil =>
      cases others
      rw [groups, List.flatMap_singleton, Group.comparisons, List.length_cons] at several
      rw [List.all_cons, List.all_nil, Bool.and_true] at incomplete
      have parentheses : g.rest ≠ [] := List.ne_nil_of_length_pos (by omega)
      have outside : Spot.opened ≠ .quoted := by decide
      rw [String.append_empty, first.after_of_several parentheses incomplete outside] at allowed
      cases allowed

/-- A connective with nothing beside it is in no condition. -/
theorem Writes.not_isWellFormed (written : p.Writes text) (several : 1 < p.comparisons.length)
    (incomplete : p.comparisons.all Comparison.isComplete = false) : ¬IsWellFormed text := by
  -- Read behind a parenthesis, an empty text stays there and a condition ends in something.
  rintro (rfl | condition)
  · have gap := written.after_eq several incomplete (s := .opened) rfl
    contradiction
  · have gap := written.after_eq several incomplete (condition.solid .opened nofun)
    contradiction

theorem Writes.isWellFormed_iff (written : p.Writes text) :
    IsWellFormed text ↔
      p.comparisons.length ≤ 1 ∨ p.comparisons.all Comparison.isComplete = true := by
  constructor
  · intro wellFormed
    by_contra other
    rw [not_or, not_le, Bool.not_eq_true] at other
    exact written.not_isWellFormed other.1 other.2 wellFormed
  · rintro (short | complete)
    · exact written.isWellFormed_of_short short
    · exact written.isWellFormed (List.all_eq_true.mp complete)

/-- Nothing, or a condition behind its keyword. -/
def IsWhereClause (clause : String) : Prop :=
  clause = "" ∨ ∃ text, IsCondition text ∧ clause = "WHERE " ++ text

theorem isWhereClause_iff (text : String) :
    IsWhereClause (if text = "" then "" else "WHERE " ++ text) ↔ IsWellFormed text := by
  by_cases empty : text = ""
  · rw [if_pos empty]
    exact iff_of_true (Or.inl rfl) (Or.inl empty)
  · rw [if_neg empty]
    constructor
    · rintro (nothing | ⟨inside, condition, same⟩)
      · simp at nothing
      · obtain rfl := (String.append_right_inj _).mp same
        exact Or.inr condition
    · rintro (nothing | condition)
      · exact absurd nothing empty
      · exact Or.inr ⟨text, condition, rfl⟩

variable {σ : Type} [Sink σ]

/-- Whether a condition is written as one. Its comparisons are ordinary, and it compiles, beside a
collection or by itself. Then its text is a condition, or nothing, if and only if there is no more
than one comparison or none of them is without a value that its operator needs, and so is what stands
behind the keyword of its clause. -/
theorem compile_isWellFormed_iff (ordinary : ∀ c ∈ p.comparisons, c.IsOrdinary) (s : Option σ)
    (written : (Compile.outcome p.compile s).1 = .ok text) :
    (IsWellFormed text ↔
      p.comparisons.length ≤ 1 ∨ ∀ c ∈ p.comparisons, c.isVacuous = false) ∧
    ∃ clause, (Compile.outcome p.whereClause s).1 = .ok clause ∧
      (IsWhereClause clause ↔
        p.comparisons.length ≤ 1 ∨ ∀ c ∈ p.comparisons, c.isVacuous = false) := by
  have shape : p.Writes text := compile_yields ordinary s text written
  have texts := shape.isWellFormed_iff
  simp only [List.all_eq_true, Comparison.isComplete, Bool.not_eq_true'] at texts
  refine ⟨texts, if text = "" then "" else "WHERE " ++ text, ?_, ?_⟩
  · rcases run : Compile.outcome p.compile s with ⟨result, after⟩
    rw [run] at written
    obtain rfl : result = .ok text := written
    rw [whereClause, Compile.outcome_bind, run]
    rfl
  · rw [isWhereClause_iff]
    exact texts

end Condition

/-- A comparison, and behind it one for likeness with no value. -/
def Condition.gapped : Condition :=
  ⟨[⟨.scalar "a" .equals (.bool true), [.new "b" .like .null]⟩], .and⟩

theorem Condition.compile_isWellFormed_iff_gapped :
    (∀ c ∈ gapped.comparisons, c.IsOrdinary) ∧
      (Compile.outcome gapped.compile (none : Option Bindings)).1 = .ok "(a = 1 AND )" ∧
      ¬IsWellFormed "(a = 1 AND )" ∧
      ∃ clause, (Compile.outcome gapped.whereClause (none : Option Bindings)).1 = .ok clause ∧
        ¬IsWhereClause clause := by
  have ordinary : ∀ c ∈ gapped.comparisons, c.IsOrdinary := by decide
  have written : (Compile.outcome gapped.compile (none : Option Bindings)).1 =
      .ok "(a = 1 AND )" := by rfl
  have several : ¬(gapped.comparisons.length ≤ 1 ∨
      ∀ c ∈ gapped.comparisons, c.isVacuous = false) := by decide
  obtain ⟨texts, clause, behind, clauses⟩ := compile_isWellFormed_iff ordinary none written
  exact ⟨ordinary, written, fun h => several (texts.mp h), clause, behind,
    fun h => several (clauses.mp h)⟩

/-- An ordinary condition whose text has a connective in front of a closing parenthesis. -/
theorem Condition.exists_ordinary_not_isWellFormed :
    ∃ text, (∀ c ∈ gapped.comparisons, c.IsOrdinary) ∧ gapped.toSql = .ok text ∧
      text = "(a = 1 AND )" ∧ ¬IsWellFormed text := by
  refine ⟨"(a = 1 AND )", by decide, by rfl, rfl, ?_⟩
  rintro (nothing | condition)
  · simp at nothing
  · have closed : Spot.opened.after "(a = 1 AND )".toList = none := by rfl
    have solid := condition.solid .opened nofun
    rw [closed] at solid
    contradiction

end TypedSql
