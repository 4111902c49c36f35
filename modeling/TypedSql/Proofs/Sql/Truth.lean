import Mathlib.Order.MinMax
import TypedSql.Proofs.Sql.Tree

/-! The truth of SQL conditions, which may be unknown. `AND` is the lesser and `OR` the greater of two
values, and `NOT` leaves the unknown as it is. The tests of a condition get their values from a list,
in the order in which they stand, so that a test that occurs twice may have two values. -/
namespace TypedSql.Sql

inductive Truth where
  | no
  | unknown
  | yes
  deriving DecidableEq, Repr

namespace Truth

def rank : Truth → Nat
  | .no => 0
  | .unknown => 1
  | .yes => 2

theorem rank_injective : Function.Injective rank := by
  intro v w same
  cases v <;> cases w <;> first | rfl | cases same

instance : LinearOrder Truth := .lift' rank rank_injective

def not : Truth → Truth
  | .no => .yes
  | .unknown => .unknown
  | .yes => .no

@[simp] theorem not_not (v : Truth) : v.not.not = v := by
  cases v <;> rfl

theorem le_yes (v : Truth) : v ≤ .yes := by
  cases v <;> decide

theorem no_le (v : Truth) : .no ≤ v := by
  cases v <;> decide

@[simp] theorem min_yes (v : Truth) : min v .yes = v := min_eq_left v.le_yes

@[simp] theorem yes_min (v : Truth) : min .yes v = v := min_eq_right v.le_yes

@[simp] theorem min_no (v : Truth) : min v .no = .no := min_eq_right v.no_le

@[simp] theorem max_no (v : Truth) : max v .no = v := max_eq_left v.no_le

@[simp] theorem no_max (v : Truth) : max .no v = v := max_eq_right v.no_le

@[simp] theorem yes_max (v : Truth) : max .yes v = .yes := max_eq_left v.le_yes

end Truth

namespace Tree

mutual

/-- The truth of a condition, and the values that its tests leave of the list. A test with no value
left for it is unknown. -/
def run : Tree → List Truth → Truth × List Truth
  | .test _, values => (values.headD .unknown, values.tail)
  | .not t, values => ((t.run values).1.not, (t.run values).2)
  | .group t, values => t.run values
  | .all ts, values => runAll min .yes ts values
  | .any ts, values => runAll max .no ts values

/-- Conditions one after the other, with their truths joined. -/
def runAll (join : Truth → Truth → Truth) (empty : Truth) :
    List Tree → List Truth → Truth × List Truth
  | [], values => (empty, values)
  | t :: ts, values =>
    (join (t.run values).1 (runAll join empty ts (t.run values).2).1,
      (runAll join empty ts (t.run values).2).2)

end

mutual

/-- The tests of a condition, in the order in which they stand. -/
def tests : Tree → List Test
  | .test t => [t]
  | .not t => t.tests
  | .group t => t.tests
  | .all ts => testsAll ts
  | .any ts => testsAll ts

def testsAll : List Tree → List Test
  | [] => []
  | t :: ts => t.tests ++ testsAll ts

end

theorem testsAll_eq (ts : List Tree) : testsAll ts = ts.flatMap tests := by
  induction ts with
  | nil => rfl
  | cons t ts ih => rw [testsAll, ih, List.flatMap_cons]

theorem tests_ofAll (ts : List Tree) : (ofAll ts).tests = ts.flatMap tests := by
  match ts with
  | [t] => simp [ofAll]
  | [] | _ :: _ :: _ => simp only [ofAll, tests, testsAll_eq]

theorem tests_ofAny (ts : List Tree) : (ofAny ts).tests = ts.flatMap tests := by
  match ts with
  | [t] => simp [ofAny]
  | [] | _ :: _ :: _ => simp only [ofAny, tests, testsAll_eq]

/-- Runs keep the tests of their members, and the order. -/
theorem tests_ofRuns {α : Type} (tree : α → Tree) (runs : List (List α)) :
    (ofRuns tree runs).tests = runs.flatten.flatMap fun a => (tree a).tests := by
  simp only [ofRuns, tests_ofAny, List.flatMap_map, tests_ofAll, List.flatten_eq_flatMap,
    List.flatMap_assoc, id_eq]

/-- The truth of a condition whose tests have these values in turn. -/
def truth (t : Tree) (values : List Truth) : Truth := (t.run values).1

/-- There is one test in the condition. -/
def IsSingle (t : Tree) : Prop := ∀ v rest, t.run (v :: rest) = (t.truth [v], rest)

theorem isSingle_test (t : Test) : (Tree.test t).IsSingle := by
  intro v rest
  rw [truth, run, run]
  rfl

theorem IsSingle.not {t : Tree} (single : t.IsSingle) : (Tree.not t).IsSingle := by
  intro v rest
  rw [truth, run, run, single v rest]
  rfl

theorem run_ofAll (ts : List Tree) (values : List Truth) :
    (ofAll ts).run values = runAll min .yes ts values := by
  match ts with
  | [t] => simp [ofAll, runAll]
  | [] | _ :: _ :: _ => simp only [ofAll, run]

theorem run_ofAny (ts : List Tree) (values : List Truth) :
    (ofAny ts).run values = runAll max .no ts values := by
  match ts with
  | [t] => simp [ofAny, runAll]
  | [] | _ :: _ :: _ => simp only [ofAny, run]

section Runs

variable {join : Truth → Truth → Truth} {empty : Truth}

/-- Conditions that use up one stretch of the list each. -/
theorem runAll_map {α : Type} {tree : α → Tree} {values : α → List Truth} {truth : α → Truth}
    {as : List α} (each : ∀ a ∈ as, ∀ rest, (tree a).run (values a ++ rest) = (truth a, rest))
    (rest : List Truth) :
    runAll join empty (as.map tree) (as.flatMap values ++ rest) =
      ((as.map truth).foldr join empty, rest) := by
  induction as with
  | nil => simp [runAll]
  | cons a as ih =>
    rw [List.forall_mem_cons] at each
    rw [List.map_cons, List.flatMap_cons, List.append_assoc, runAll, each.1, ih each.2]
    rfl

/-- Runs of single tests: the greatest of the truths of the runs, each of which is the least of the
truths in it. -/
theorem run_ofRuns {runs : List (List (Tree × Truth))}
    (single : ∀ run ∈ runs, ∀ part ∈ run, part.1.IsSingle) (rest : List Truth) :
    (ofRuns Prod.fst runs).run (runs.flatten.map Prod.snd ++ rest) =
      ((runs.map fun run => (run.map fun part => part.1.truth [part.2]).foldr min .yes).foldr
        max .no, rest) := by
  have conjunction : ∀ run ∈ runs, ∀ rest,
      (ofAll (run.map Prod.fst)).run (run.map Prod.snd ++ rest) =
        ((run.map fun part => part.1.truth [part.2]).foldr min .yes, rest) := by
    intro run member rest
    have each : ∀ part ∈ run, ∀ rest, part.1.run ([part.2] ++ rest) = (part.1.truth [part.2], rest) :=
      fun part among => single run member part among part.2
    have stretch : run.map Prod.snd = run.flatMap fun part => [part.2] := List.map_eq_flatMap
    rw [run_ofAll, stretch, runAll_map each]
  have values : runs.flatten.map Prod.snd = runs.flatMap (List.map Prod.snd) := by
    rw [List.map_flatten, List.flatMap_def]
  rw [ofRuns, run_ofAny, values, runAll_map conjunction]

end Runs

end Tree

end TypedSql.Sql
