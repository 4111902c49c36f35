import TypedSql.Condition.Basic
import TypedSql.Proofs.Sql.Truth

/-! Two ways to combine truth values that have connectives between them: one after the other from the
left, and by precedence, with `AND` before `OR`. The first never gives more than the second, and the
two are the same for all values if and only if no `AND` comes behind an `OR`. -/
namespace TypedSql

open Sql

namespace Connective

def join : Connective → Truth → Truth → Truth
  | .and => min
  | .or => max

/-- No `AND` comes behind an `OR`. -/
def AndsFirst (ks : List Connective) : Prop := ks.Pairwise fun a b => a = .or → b = .or

instance (ks : List Connective) : Decidable (AndsFirst ks) :=
  inferInstanceAs (Decidable (ks.Pairwise _))

end Connective

/-- The value so far is joined with each next one by the connective before it. -/
def accumulate (v : Truth) : List (Connective × Truth) → Truth
  | [] => v
  | (k, w) :: rest => accumulate (k.join v w) rest

/-- What an `OR` is followed by is a value of its own. -/
def precedence (v : Truth) : List (Connective × Truth) → Truth
  | [] => v
  | (.and, w) :: rest => precedence (min v w) rest
  | (.or, w) :: rest => max v (precedence w rest)

/-- Members with connectives between them, cut at each `OR`. -/
def runsFrom {α : Type} (run : List α) : List (Connective × α) → List (List α)
  | [] => [run]
  | (.and, a) :: rest => runsFrom (run ++ [a]) rest
  | (.or, a) :: rest => run :: runsFrom [a] rest

section Runs

variable {α β : Type}

theorem runsFrom_ne_nil (run : List α) (rest : List (Connective × α)) : runsFrom run rest ≠ [] := by
  induction rest generalizing run with
  | nil => exact List.cons_ne_nil _ _
  | cons part rest ih =>
    obtain ⟨_ | _, a⟩ := part
    · exact ih _
    · exact List.cons_ne_nil _ _

theorem mem_runsFrom_ne_nil {run : List α} (nonempty : run ≠ []) (rest : List (Connective × α)) :
    ∀ r ∈ runsFrom run rest, r ≠ [] := by
  induction rest generalizing run with
  | nil => exact List.forall_mem_singleton.mpr nonempty
  | cons part rest ih =>
    obtain ⟨_ | _, a⟩ := part
    · exact ih (List.append_ne_nil_of_right_ne_nil run (List.cons_ne_nil a []))
    · exact List.forall_mem_cons.mpr ⟨nonempty, ih (List.cons_ne_nil a [])⟩

/-- All members stay, in their order. -/
theorem flatten_runsFrom (run : List α) (rest : List (Connective × α)) :
    (runsFrom run rest).flatten = run ++ rest.map Prod.snd := by
  induction rest generalizing run with
  | nil => simp [runsFrom]
  | cons part rest ih =>
    obtain ⟨_ | _, a⟩ := part <;> simp [runsFrom, ih]

theorem map_runsFrom (f : α → β) (run : List α) (rest : List (Connective × α)) :
    (runsFrom run rest).map (List.map f) =
      runsFrom (run.map f) (rest.map fun part => (part.1, f part.2)) := by
  induction rest generalizing run with
  | nil => rfl
  | cons part rest ih =>
    obtain ⟨_ | _, a⟩ := part <;> simp [runsFrom, ih]

/-- Precedence is the greatest of the truths of the runs, each of which is the least of the truths in
it. -/
theorem precedence_eq (run : List Truth) (rest : List (Connective × Truth)) :
    precedence (run.foldr min .yes) rest =
      ((runsFrom run rest).map fun run => run.foldr min .yes).foldr max .no := by
  induction rest generalizing run with
  | nil => simp [runsFrom, precedence]
  | cons part rest ih =>
    obtain ⟨_ | _, w⟩ := part
    · have longer : (run ++ [w]).foldr min .yes = min (run.foldr min .yes) w := by
        induction run with
        | nil => simp
        | cons v run more => simp [more, min_assoc]
      rw [precedence, runsFrom, ← longer, ih]
    · have alone : [w].foldr min .yes = w := by simp
      rw [precedence, runsFrom, List.map_cons, List.foldr_cons, ← ih, alone]

end Runs

section Comparing

variable {ks : List Connective} {rest : List (Connective × Truth)}

/-- What is already the greater part of the value is never lost by precedence. -/
theorem accumulate_max_le (u v : Truth) (rest : List (Connective × Truth)) :
    accumulate (max u v) rest ≤ max u (precedence v rest) := by
  induction rest generalizing u v with
  | nil => exact le_refl _
  | cons part rest ih =>
    obtain ⟨_ | _, w⟩ := part
    · calc accumulate (min (max u v) w) rest
          = accumulate (max (min u w) (min v w)) rest := by rw [min_max_distrib_right]
        _ ≤ max (min u w) (precedence (min v w) rest) := ih _ _
        _ ≤ max u (precedence (min v w) rest) := max_le_max_right _ (min_le_left u w)
    · calc accumulate (max (max u v) w) rest
          ≤ max (max u v) (precedence w rest) := ih _ _
        _ = max u (max v (precedence w rest)) := max_assoc _ _ _

theorem accumulate_le_precedence (v : Truth) (rest : List (Connective × Truth)) :
    accumulate v rest ≤ precedence v rest := by
  simpa using accumulate_max_le .no v rest

/-- In front of an `OR` the greater part stays apart. -/
theorem precedence_max (u v : Truth) (or : ∀ part ∈ rest, part.1 = .or) :
    precedence (max u v) rest = max u (precedence v rest) := by
  cases rest with
  | nil => rfl
  | cons part rest =>
    obtain ⟨k, w⟩ := part
    obtain rfl : k = .or := or _ List.mem_cons_self
    exact max_assoc u v _

theorem accumulate_eq_precedence (v : Truth) (first : Connective.AndsFirst (rest.map Prod.fst)) :
    accumulate v rest = precedence v rest := by
  induction rest generalizing v with
  | nil => rfl
  | cons part rest ih =>
    rw [List.map_cons, Connective.AndsFirst, List.pairwise_cons] at first
    obtain ⟨k, w⟩ := part
    cases k with
    | and => exact ih _ first.2
    | or =>
      have others : ∀ part ∈ rest, part.1 = .or := fun part member =>
        first.1 part.1 (List.mem_map_of_mem member) rfl
      exact (ih _ first.2).trans (precedence_max v w others)

/-- With nothing but falsehoods behind it, and an `AND` among the connectives, the value is lost. -/
theorem accumulate_replicate_no (v : Truth) (lost : v = .no ∨ .and ∈ ks) :
    accumulate v (ks.zip (List.replicate ks.length .no)) = .no := by
  induction ks generalizing v with
  | nil => exact lost.resolve_right List.not_mem_nil
  | cons k ks ih =>
    cases k with
    | and => exact ih _ (Or.inl v.min_no)
    | or =>
      have still : max v .no = .no ∨ .and ∈ ks := by simpa using lost
      exact ih _ still

/-- Behind an `OR` an `AND` makes a difference: what was true before the `OR` is lost. -/
theorem exists_accumulate_lt (behind : ¬Connective.AndsFirst ks) :
    ∃ v ws, ws.length = ks.length ∧ accumulate v (ks.zip ws) = .no ∧
      precedence v (ks.zip ws) = .yes := by
  induction ks with
  | nil => exact absurd .nil behind
  | cons k ks ih =>
    by_cases here : k = .or ∧ .and ∈ ks
    · obtain ⟨rfl, and⟩ := here
      refine ⟨.yes, .no :: List.replicate ks.length .no, by simp, ?_, Truth.yes_max _⟩
      exact accumulate_replicate_no _ (Or.inr (List.mem_cons_of_mem _ and))
    · have later : ¬Connective.AndsFirst ks := by
        intro ordered
        refine behind (List.pairwise_cons.mpr ⟨fun b member or => ?_, ordered⟩)
        cases b with
        | and => exact absurd ⟨or, member⟩ here
        | or => rfl
      obtain ⟨v, ws, length, less, more⟩ := ih later
      -- a value in front that the first connective leaves out
      cases k with
      | and =>
        refine ⟨.yes, v :: ws, congrArg Nat.succ length, ?_, ?_⟩
        · rwa [List.zip_cons_cons, accumulate, Connective.join, Truth.yes_min]
        · rwa [List.zip_cons_cons, precedence, Truth.yes_min]
      | or =>
        refine ⟨.no, v :: ws, congrArg Nat.succ length, ?_, ?_⟩
        · rwa [List.zip_cons_cons, accumulate, Connective.join, Truth.no_max]
        · rwa [List.zip_cons_cons, precedence, Truth.no_max]

/-- The two ways agree on all values exactly where no `AND` comes behind an `OR`. -/
theorem accumulate_eq_precedence_iff (ks : List Connective) :
    (∀ v ws, ws.length = ks.length → accumulate v (ks.zip ws) = precedence v (ks.zip ws)) ↔
      Connective.AndsFirst ks := by
  constructor
  · intro agree
    by_contra behind
    obtain ⟨v, ws, length, less, more⟩ := exists_accumulate_lt behind
    have same := agree v ws length
    rw [less, more] at same
    cases same
  · intro first v ws length
    apply accumulate_eq_precedence
    rwa [List.map_fst_zip length.ge]

example : ¬Connective.AndsFirst [.and, .or, .and] := by decide

end Comparing

end TypedSql
