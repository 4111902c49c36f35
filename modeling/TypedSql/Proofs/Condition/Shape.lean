import TypedSql.Proofs.Condition.Grammar
import TypedSql.Proofs.Condition.RoundTrip

/-! The shape of what a condition compiles to, beside any collection and by itself. A comparison that
has no value and whose operator has no test for that writes nothing; every other one is written as a
complete comparison. The connectives and parentheses around them do not depend on it. -/
namespace TypedSql

open Sql

namespace Comparison

/-- No value, and an operator with no test for that. -/
def isVacuous (c : Comparison) : Bool :=
  c.operand.isNull && c.operator != .equals && c.operator != .notEqualTo

def isComplete (c : Comparison) : Bool := !c.isVacuous

/-- A comparison with nothing raw in it, no list that is written already and no infinite number. It
may have no value under any operator. -/
structure IsOrdinary (c : Comparison) : Prop where
  field : IsPlainWord c.field.toList
  values : ∀ v ∈ c.operand.values, v.IsPlain
  list : c.operator = .isIn ∨ c.operator = .notIn → c.operand.isWritten = false

instance instDecidableIsOrdinary (c : Comparison) : Decidable c.IsOrdinary :=
  decidable_of_iff (IsPlainWord c.field.toList ∧ (∀ v ∈ c.operand.values, v.IsPlain) ∧
      (c.operator = .isIn ∨ c.operator = .notIn → c.operand.isWritten = false))
    ⟨fun ⟨field, values, list⟩ => ⟨field, values, list⟩,
      fun ⟨field, values, list⟩ => ⟨field, values, list⟩⟩

theorem IsOrdinary.isPlain {c : Comparison} (ordinary : c.IsOrdinary)
    (present : c.isVacuous = false) : c.IsPlain := by
  refine ⟨ordinary.field, ordinary.values, ordinary.list, fun null => ?_⟩
  rw [isVacuous, null] at present
  cases operator : c.operator <;> simp_all

end Comparison

def Group.isComplete (g : Group) : Bool := g.comparisons.all Comparison.isComplete

section Shapes

/-- The texts of a comparison: nothing, or a complete comparison. -/
inductive Comparison.Writes (c : Comparison) : String → Prop
  | nothing (vacuous : c.isVacuous = true) : c.Writes ""
  | complete {text : String} (present : c.isVacuous = false) (complete : IsComparison text) :
      c.Writes text

/-- The texts of parts in a row, each behind its connective. -/
inductive WritesRest {α : Type} (writes : α → String → Prop) (connective : α → Connective) :
    List α → String → Prop
  | nil : WritesRest writes connective [] ""
  | cons {a : α} {as : List α} {text rest : String} (next : writes a text)
      (others : WritesRest writes connective as rest) :
      WritesRest writes connective (a :: as) ((connective a).separator ++ text ++ rest)

/-- The texts of a group, with parentheses around several comparisons. -/
inductive Group.Writes (g : Group) : String → Prop
  | alone {text : String} (single : g.rest = []) (first : g.first.Writes text) : g.Writes text
  | joined {text rest : String} (several : g.rest ≠ []) (first : g.first.Writes text)
      (others : WritesRest Comparison.Writes Comparison.connective g.rest rest) :
      g.Writes ("(" ++ (text ++ rest) ++ ")")

inductive Condition.Writes (p : Condition) : String → Prop
  | nothing (empty : p.groups = []) : p.Writes ""
  | groups {g : Group} {gs : List Group} {text rest : String} (groups : p.groups = g :: gs)
      (first : g.Writes text) (others : WritesRest Group.Writes (fun _ => p.connective) gs rest) :
      p.Writes (text ++ rest)

end Shapes

section Compiling

variable {σ α β : Type}

/-- What the compilation returns is as described, wherever it starts. It may also fail. -/
def Compile.Yields (m : Compile σ α) (post : α → Prop) : Prop :=
  ∀ s a, (m.outcome s).1 = .ok a → post a

namespace Compile.Yields

variable {m : Compile σ α} {k : α → Compile σ β} {post : α → Prop} {post' : β → Prop}

theorem pure {a : α} (h : post a) : Yields (pure a : Compile σ α) post := by
  intro s b same
  obtain rfl := Except.ok.inj same
  exact h

theorem throw (e : MalformedComparison) : Yields (throw e : Compile σ α) post := by
  intro s a same
  cases same

theorem bind (first : Yields m post) (next : ∀ a, post a → Yields (k a) post') :
    Yields (m >>= k) post' := by
  intro s b same
  rw [outcome_bind] at same
  rcases run : m.outcome s with ⟨_ | a, after⟩
  · rw [run] at same
    cases same
  · rw [run] at same
    exact next a (first s a (congrArg Prod.fst run)) after b same

end Compile.Yields

open Compile

variable [Sink σ]

theorem Value.emit_yields {v : Value} (plain : v.IsPlain) :
    Yields (v.emit : Compile σ String) IsTerm := by
  intro s text same
  rw [Fills.emit v s] at same
  cases v with
  | raw sql => cases plain
  | _ =>
    simp only [Value.draft, Draft.fill, Template.fill, String.empty_append,
      String.append_empty] at same
    obtain rfl := Except.ok.inj same
    cases s with
    | none => exact .literal plain
    | some s => exact .placeholder (Sink.count s)

namespace Comparison

variable {c : Comparison}

theorem isComparison_subject {text : String} (test : IsTest (c.field ++ text)) :
    IsComparison (c.subject ++ text) := by
  unfold subject
  cases c.operator.isNegated with
  | true =>
    rw [if_pos rfl, String.append_assoc]
    exact .not test
  | false =>
    rw [if_neg nofun, String.empty_append]
    exact .test test

theorem compileRange_yields (ordinary : c.IsOrdinary) :
    Yields (c.compileRange : Compile σ String) IsComparison := by
  have values := ordinary.values
  unfold compileRange
  cases bounds : c.operand.bounds? with
  | none => exact .throw _
  | some ends =>
    rw [Operand.values_of_bounds? bounds, List.forall_mem_cons,
      List.forall_mem_singleton] at values
    refine (Value.emit_yields values.1).bind fun low lower => ?_
    refine (Value.emit_yields values.2).bind fun high upper => .pure ?_
    have test := IsTest.range ordinary.field lower upper
    simp only [String.append_assoc] at test ⊢
    exact isComparison_subject test

theorem compileBinary_yields (ordinary : c.IsOrdinary) (compares : c.operator.symbol ∈ signs) :
    Yields (c.compileBinary : Compile σ String) IsComparison := by
  have values := ordinary.values
  unfold compileBinary
  cases operand : c.operand with
  | null | pair | sequence => exact .throw _
  | raw sql => exact (values (.raw sql) (by simp [operand, Operand.values])).elim
  | scalar v =>
    rw [operand, Operand.values, List.forall_mem_singleton] at values
    refine (Value.emit_yields values).bind fun right term => .pure ?_
    have test := IsTest.binary ordinary.field compares term
    rw [String.append_assoc] at test ⊢
    exact isComparison_subject test

theorem isComparison_members (plain : c.IsPlain) (present : c.operand.isNull = false)
    (member : c.operator = .isIn ∨ c.operator = .notIn) :
    IsComparison (c.subject ++ " IN (" ++ c.operand.memberList ++ ")") := by
  rw [memberList_eq plain member present]
  have test := IsTest.member plain.field plain.values
  simp only [String.append_assoc] at test ⊢
  exact isComparison_subject test

theorem nullTest_writes (ordinary : c.IsOrdinary) (null : c.operand.isNull = true) :
    c.Writes c.nullTest := by
  have test := IsTest.isNull ordinary.field
  unfold nullTest
  cases operator : c.operator with
  | equals => exact .complete (by simp [isVacuous, operator]) (.test test)
  | notEqualTo =>
    rw [String.append_assoc]
    exact .complete (by simp [isVacuous, operator]) (.not test)
  | _ => exact .nothing (by simp [isVacuous, null, operator])

theorem compile_yields (ordinary : c.IsOrdinary) :
    Yields (c.compile : Compile σ String) c.Writes := by
  unfold compile
  by_cases null : c.operand.isNull = true
  · rw [if_pos null]
    exact .pure (nullTest_writes ordinary null)
  · rw [if_neg null]
    rw [Bool.not_eq_true] at null
    have present : c.isVacuous = false := by rw [isVacuous, null]; rfl
    have complete : ∀ text, IsComparison text → c.Writes text := fun _ => .complete present
    cases operator : c.operator with
    | between | notBetween =>
      exact fun s text run => complete text (compileRange_yields ordinary s text run)
    | isIn =>
      exact .pure (complete _ (isComparison_members (ordinary.isPlain present) null (.inl operator)))
    | notIn =>
      exact .pure (complete _ (isComparison_members (ordinary.isPlain present) null (.inr operator)))
    | _ =>
      have compares : c.operator.symbol ∈ signs := by rw [operator]; decide
      exact fun s text run => complete text (compileBinary_yields ordinary compares s text run)

theorem compileRest_yields {cs : List Comparison} (ordinary : ∀ c ∈ cs, c.IsOrdinary) :
    Yields (compileRest cs : Compile σ String) (WritesRest Writes connective cs) := by
  induction cs with
  | nil => exact .pure .nil
  | cons c cs ih =>
    rw [List.forall_mem_cons] at ordinary
    refine (compile_yields ordinary.1).bind fun text next => ?_
    exact (ih ordinary.2).bind fun rest others => .pure (.cons next others)

end Comparison

theorem Group.compile_yields {g : Group} (ordinary : ∀ c ∈ g.comparisons, c.IsOrdinary) :
    Yields (g.compile : Compile σ String) g.Writes := by
  rw [comparisons, List.forall_mem_cons] at ordinary
  refine (Comparison.compile_yields ordinary.1).bind fun text first => ?_
  refine (Comparison.compileRest_yields ordinary.2).bind fun rest others => .pure ?_
  cases several : g.rest with
  | nil => exact .alone several first
  | cons c cs =>
    have joined := Group.Writes.joined (several ▸ List.cons_ne_nil c cs) first others
    rwa [← String.append_assoc] at joined

namespace Condition

theorem compileRest_yields {gs : List Group}
    (ordinary : ∀ g ∈ gs, ∀ c ∈ g.comparisons, c.IsOrdinary) (connective : Connective) :
    Yields (compileRest connective gs : Compile σ String)
      (WritesRest Group.Writes (fun _ => connective) gs) := by
  induction gs with
  | nil => exact .pure .nil
  | cons g gs ih =>
    rw [List.forall_mem_cons] at ordinary
    refine (Group.compile_yields ordinary.1).bind fun text next => ?_
    exact (ih ordinary.2).bind fun rest others => .pure (.cons next others)

theorem compile_yields {p : Condition} (ordinary : ∀ c ∈ p.comparisons, c.IsOrdinary) :
    Yields (p.compile : Compile σ String) p.Writes := by
  have each : ∀ g ∈ p.groups, ∀ c ∈ g.comparisons, c.IsOrdinary := fun g member c among =>
    ordinary c (List.mem_flatMap.mpr ⟨g, member, among⟩)
  unfold compile
  cases groups : p.groups with
  | nil => exact .pure (.nothing groups)
  | cons g gs =>
    rw [groups, List.forall_mem_cons] at each
    refine (Group.compile_yields each.1).bind fun text first => ?_
    exact (compileRest_yields each.2 p.connective).bind fun rest others =>
      .pure (.groups groups first others)

end Condition

end Compiling

end TypedSql
