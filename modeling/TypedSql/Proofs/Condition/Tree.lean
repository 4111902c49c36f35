import TypedSql.Condition.Basic
import TypedSql.Proofs.Value.Literal

/-! The structure that a condition has as SQL: one test for each comparison, negated or not, runs of
tests between the connectives of a group, and the groups under the connective of the whole. -/
namespace TypedSql

open Sql

def Operand.values : Operand → List Value
  | .null => []
  | .scalar v => [v]
  | .pair lower upper => [lower, upper]
  | .sequence vs => vs
  | .raw sql => [.raw sql]

theorem Operand.values_of_bounds? {o : Operand} {lower upper : Value}
    (h : o.bounds? = some (lower, upper)) : o.values = [lower, upper] := by
  unfold bounds? at h
  split at h <;> simp_all [values]

/-- What an operator asks about a field when there is a value to compare with. -/
def Operator.predicate : Operator → Predicate
  | .equals => .relation .equal
  | .notEqualTo => .relation .unequal
  | .like | .notLike => .like
  | .greaterThan => .relation .greater
  | .greaterOrEquals => .relation .greaterOrEqual
  | .lessThan => .relation .less
  | .lessOrEquals => .relation .lessOrEqual
  | .isIn | .notIn => .isIn
  | .between | .notBetween => .between

namespace Comparison

/-- The test of a field. Without a value it is a test for null. -/
def test (c : Comparison) : Test :=
  if c.operand.isNull then ⟨.column c.field, .isNull, []⟩
  else ⟨.column c.field, c.operator.predicate, c.operand.values.map (.constant ·.constant)⟩

def isNegated (c : Comparison) : Bool :=
  if c.operand.isNull then c.operator == .notEqualTo else c.operator.isNegated

def tree (c : Comparison) : Tree := if c.isNegated then .not (.test c.test) else .test c.test

/-- A comparison and those behind it, cut at each `OR`: the run that the first one is in, and the
other runs. -/
def runs (first : Comparison) : List Comparison → List Comparison × List (List Comparison)
  | [] => ([first], [])
  | c :: rest =>
    let (run, others) := runs c rest
    match c.connective with
    | .and => (first :: run, others)
    | .or => ([first], run :: others)

end Comparison

namespace Group

def runs (g : Group) : List (List Comparison) :=
  let (run, others) := Comparison.runs g.first g.rest
  run :: others

/-- A group of several comparisons is a unit. -/
def tree (g : Group) : Tree :=
  if g.rest.isEmpty then g.first.tree else .group (.ofRuns Comparison.tree g.runs)

end Group

/-- All groups in order, under the connective of the condition. -/
def Condition.tree (p : Condition) : Tree :=
  match p.connective with
  | .and => .ofAll (p.groups.map Group.tree)
  | .or => .ofAny (p.groups.map Group.tree)

/-- A letter or an underscore with letters, digits and underscores behind it, and no keyword. -/
def IsPlainWord : List Char → Prop
  | [] => False
  | c :: cs =>
    isWordStart c = true ∧ (∀ d ∈ cs, isWordChar d = true) ∧ Keyword.ofWord? (c :: cs) = none

instance : (cs : List Char) → Decidable (IsPlainWord cs)
  | [] => .isFalse id
  | c :: cs =>
    decidable_of_iff (isWordStart c = true ∧ cs.all isWordChar = true ∧
      Keyword.ofWord? (c :: cs) = none) (by rw [List.all_eq_true, IsPlainWord])

/-- A single text, which `IN` takes for a list that is written already. -/
def Operand.isWritten : Operand → Bool
  | .scalar (.text _) => true
  | _ => false

/-- A comparison that is written as one test: there is nothing raw in it, no list that is written
already and no infinite number, and only equality and its opposite stand with no value. -/
structure Comparison.IsPlain (c : Comparison) : Prop where
  field : IsPlainWord c.field.toList
  values : ∀ v ∈ c.operand.values, v.IsPlain
  list : c.operator = .isIn ∨ c.operator = .notIn → c.operand.isWritten = false
  null : c.operand.isNull = true → c.operator = .equals ∨ c.operator = .notEqualTo

instance Comparison.instDecidableIsPlain (c : Comparison) : Decidable c.IsPlain :=
  decidable_of_iff (IsPlainWord c.field.toList ∧ (∀ v ∈ c.operand.values, v.IsPlain) ∧
      (c.operator = .isIn ∨ c.operator = .notIn → c.operand.isWritten = false) ∧
      (c.operand.isNull = true → c.operator = .equals ∨ c.operator = .notEqualTo))
    ⟨fun ⟨field, values, list, null⟩ => ⟨field, values, list, null⟩,
      fun ⟨field, values, list, null⟩ => ⟨field, values, list, null⟩⟩

/-- There is a group, and all comparisons are plain. -/
structure Condition.IsPlain (p : Condition) : Prop where
  groups : p.groups ≠ []
  comparisons : ∀ c ∈ p.comparisons, c.IsPlain

instance Condition.instDecidableIsPlain (p : Condition) : Decidable p.IsPlain :=
  decidable_of_iff (p.groups ≠ [] ∧ ∀ c ∈ p.comparisons, c.IsPlain)
    ⟨fun ⟨groups, comparisons⟩ => ⟨groups, comparisons⟩,
      fun ⟨groups, comparisons⟩ => ⟨groups, comparisons⟩⟩

end TypedSql
