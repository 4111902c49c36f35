import Mathlib.Data.List.Forall2
import TypedSql.Proofs.Condition.Accumulation
import TypedSql.Proofs.Condition.Clause

/-! What a group of comparisons means as SQL. The text of a group is read as its comparisons with the
connectives between them, so that its truth is the one by precedence. -/
namespace TypedSql

open Sql

namespace Comparison

section Linking

/-- Texts behind the connectives of the comparisons. -/
def linked : List Comparison → List String → String
  | c :: cs, text :: texts => c.connective.separator ++ text ++ linked cs texts
  | _, _ => ""

theorem compileRest_eq {σ : Type} [Sink σ] (cs : List Comparison) :
    (compileRest cs : Compile σ String) = linked cs <$> cs.mapM compile := by
  induction cs with
  | nil => rfl
  | cons c cs ih =>
    simp only [compileRest, ih, List.mapM_cons, map_eq_pure_bind, bind_assoc, pure_bind, linked]

theorem ends_linked (cs : List Comparison) (texts : List String) : Ends (linked cs texts).toList := by
  unfold linked
  split
  case h_1 c cs text texts =>
    rw [String.append_assoc, String.toList_append]
    exact ends_separator c.connective _
  case h_2 => exact ends_nil

theorem spelt_linked {cs : List Comparison} {texts : List String} {clauses : List Clause}
    (length : texts.length = cs.length)
    (each : List.Forall₂ Clause.IsText texts clauses) :
    Spelt (linked cs texts).toList
      (((cs.map connective).zip clauses).flatMap fun part =>
        .keyword part.1.keyword :: part.2.tokens) := by
  induction each generalizing cs with
  | nil =>
    obtain rfl := List.length_eq_zero_iff.mp length.symm
    exact .nil
  | cons first others ih =>
    obtain _ | ⟨c, cs⟩ := cs
    · cases length
    · have rest := ih (Nat.succ.inj length)
      have word : c.connective.separator.toList =
          ' ' :: (c.connective.keyword.word.toList ++ [' ']) := by
        cases c.connective <;> rfl
      have next := first.spelt.append rest (ends_linked cs _)
      have all := ((Spelt.keyword c.connective.keyword).spaced next).blank
      simpa [linked, word] using all

end Linking

end Comparison

/-- The text of a group from the texts of its comparisons. -/
def Group.assemble (g : Group) : List String → String
  | text :: texts =>
    if g.rest.isEmpty then text else "(" ++ text ++ Comparison.linked g.rest texts ++ ")"
  | [] => ""

theorem Group.compile_eq {σ : Type} [Sink σ] (g : Group) :
    (g.compile : Compile σ String) = g.assemble <$> g.comparisons.mapM Comparison.compile := by
  simp only [compile, comparisons, Comparison.compileRest_eq, List.mapM_cons, map_eq_pure_bind,
    bind_assoc, pure_bind, assemble]

section Structure

/-- Behind its runs a group has all its clauses, each behind its connective. -/
theorem joinRuns_runsFrom {α : Type} (tokens : α → List Token) {run : List α} (nonempty : run ≠ [])
    (rest : List (Connective × α)) :
    joinRuns tokens (runsFrom run rest) =
      [Token.keyword .and].intercalate (run.map tokens) ++
        rest.flatMap fun part => .keyword part.1.keyword :: tokens part.2 := by
  induction rest generalizing run with
  | nil => simp [runsFrom, joinRuns]
  | cons part rest ih =>
    obtain ⟨_ | _, a⟩ := part
    · obtain ⟨b, more, rfl⟩ := List.exists_cons_of_ne_nil nonempty
      rw [runsFrom, ih (by simp)]
      simp [Text.intercalate_cons, Connective.keyword]
    · have others : (runsFrom [a] rest).map (fun run =>
          [Token.keyword .and].intercalate (run.map tokens)) ≠ [] := by
        simpa using runsFrom_ne_nil [a] rest
      have tail := ih (List.cons_ne_nil a [])
      rw [joinRuns] at tail
      rw [runsFrom, joinRuns, List.map_cons, List.intercalate_cons_of_ne_nil others, tail]
      simp [Connective.keyword]

theorem ofRuns_runsFrom {α : Type} (tree : α → Tree) (run : List α) (rest : List (Connective × α)) :
    Tree.ofRuns id (runsFrom (run.map tree) (rest.map fun part => (part.1, tree part.2))) =
      Tree.ofRuns tree (runsFrom run rest) := by
  simp [Tree.ofRuns, ← map_runsFrom, Function.comp_def]

/-- Single tests with their values, cut at each `OR`, have the truth that precedence gives. -/
theorem run_ofRuns_runsFrom {first : Tree × Truth} {rest : List (Connective × Tree × Truth)}
    (single : ∀ part ∈ first :: rest.map Prod.snd, part.1.IsSingle) (more : List Truth) :
    (Tree.ofRuns id (runsFrom [first.1] (rest.map fun part => (part.1, part.2.1)))).run
        (first.2 :: (rest.map (fun part => part.2.2) ++ more)) =
      (precedence (first.1.truth [first.2])
        (rest.map fun part => (part.1, part.2.1.truth [part.2.2])), more) := by
  have all : (runsFrom [first] rest).flatten = first :: rest.map Prod.snd := flatten_runsFrom _ _
  have inside : ∀ run ∈ runsFrom [first] rest, ∀ part ∈ run, part.1.IsSingle :=
    fun run member part among => single part (all ▸ List.mem_flatten_of_mem member among)
  have tree := ofRuns_runsFrom (Prod.fst : Tree × Truth → Tree) [first] rest
  have truths := map_runsFrom (fun part : Tree × Truth => part.1.truth [part.2]) [first] rest
  rw [List.map_singleton] at tree truths
  have alone : first.1.truth [first.2] = [first.1.truth [first.2]].foldr min .yes := by simp
  have values : first.2 :: (rest.map (fun part => part.2.2) ++ more) =
      (runsFrom [first] rest).flatten.map Prod.snd ++ more := by
    simp [all]
  rw [tree, values, Tree.run_ofRuns inside, alone, precedence_eq, ← truths]
  simp [List.map_map, Function.comp_def]

end Structure

namespace Group

variable {σ : Type} [Sink σ] {g : Group}

/-- The truths of conditions whose tests have these values, each behind its connective. -/
def joined (g : Group) (parts : List Tree) (tests : List Truth) : List (Connective × Truth) :=
  (g.rest.map Comparison.connective).zip (List.zipWith (fun part v => part.truth [v]) parts tests)

/-- The condition that a group is with these conditions in the place of its comparisons. -/
def treeOf (g : Group) (first : Tree) (others : List Tree) : Tree :=
  if g.rest.isEmpty then first
  else .group (.ofRuns id (runsFrom [first] ((g.rest.map Comparison.connective).zip others)))

theorem run_treeOf {first : Tree} {others : List Tree}
    (single : ∀ part ∈ first :: others, part.IsSingle) (length : others.length = g.rest.length)
    (v : Truth) {ws : List Truth} (length' : ws.length = g.rest.length) (more : List Truth) :
    (g.treeOf first others).run (v :: (ws ++ more)) =
      (precedence (first.truth [v]) (g.joined others ws), more) := by
  unfold treeOf
  split
  case isTrue alone =>
    obtain rfl : ws = [] := by
      rw [List.isEmpty_iff.mp alone] at length'
      exact List.length_eq_zero_iff.mp length'
    rw [List.nil_append, single first List.mem_cons_self v more]
    simp [joined, precedence]
  case isFalse =>
    -- the connectives, the conditions and the values of their tests side by side
    let pairs := others.zip ws
    let rest := (g.rest.map Comparison.connective).zip pairs
    have same : others.length = ws.length := length.trans length'.symm
    have seconds : rest.map Prod.snd = pairs := List.map_snd_zip (by simp [pairs, length, length'])
    have map : ∀ {α : Type} (f : Tree × Truth → α), rest.map (fun part => (part.1, f part.2)) =
        (g.rest.map Comparison.connective).zip (pairs.map f) := fun f => List.zip_map_right.symm
    have parts : rest.map (fun part => (part.1, part.2.1)) =
        (g.rest.map Comparison.connective).zip others := by
      rw [map Prod.fst, List.map_fst_zip same.le]
    have tests : rest.map (fun part => part.2.2) = ws :=
      calc rest.map (fun part => part.2.2)
          = (rest.map Prod.snd).map Prod.snd := List.map_map.symm
        _ = ws := by rw [seconds, List.map_snd_zip same.ge]
    have truths : rest.map (fun part => (part.1, part.2.1.truth [part.2.2])) = g.joined others ws := by
      rw [map fun part => part.1.truth [part.2], joined, List.map_zip_eq_zipWith]
      rfl
    have inside : ∀ part ∈ (first, v) :: rest.map Prod.snd, part.1.IsSingle := by
      rw [List.forall_mem_cons] at single
      rw [seconds, List.forall_mem_cons]
      exact ⟨single.1, fun part member => single.2 part.1 (List.of_mem_zip member).1⟩
    have read := run_ofRuns_runsFrom inside more
    rw [parts, tests, truths] at read
    rw [Tree.run, read]

theorem truth_treeOf {first : Tree} {others : List Tree}
    (single : ∀ part ∈ first :: others, part.IsSingle) (length : others.length = g.rest.length)
    (v : Truth) {ws : List Truth} (length' : ws.length = g.rest.length) :
    (g.treeOf first others).truth (v :: ws) = precedence (first.truth [v]) (g.joined others ws) := by
  have run := run_treeOf single length v length' []
  rw [List.append_nil] at run
  rw [Tree.truth, run]

/-- The condition has the tests of its members, in their order. -/
theorem tests_treeOf {first : Tree} {others : List Tree} (length : others.length = g.rest.length) :
    (g.treeOf first others).tests = (first :: others).flatMap Tree.tests := by
  unfold treeOf
  split
  case isTrue alone =>
    obtain rfl : others = [] := by
      rw [List.isEmpty_iff.mp alone] at length
      exact List.length_eq_zero_iff.mp length
    rw [List.flatMap_singleton]
  case isFalse =>
    have members : ((g.rest.map Comparison.connective).zip others).map Prod.snd = others :=
      List.map_snd_zip (by simp [length])
    rw [Tree.tests, Tree.tests_ofRuns, flatten_runsFrom, members]
    rfl

/-- A text made of the texts of clauses is read as those clauses in the structure of the group. -/
theorem parseMarked?_assemble {first : String} {texts : List String} {clause : Clause}
    {clauses : List Clause} (length : texts.length = g.rest.length) (head : clause.IsText first)
    (tail : List.Forall₂ Clause.IsText texts clauses) :
    parseMarked? (g.assemble (first :: texts)) =
      some (g.treeOf clause.tree (clauses.map Clause.tree)) := by
  simp only [assemble, treeOf]
  split
  case isTrue => exact head.parseMarked?_eq
  case isFalse =>
    let others := (g.rest.map Comparison.connective).zip clauses
    have fits : ∀ c ∈ clause :: clauses, c.test.predicate.Fits c.test.operands := by
      have all := (List.Forall₂.cons head tail).flip.imp fun c text h => And.intro h.fits h
      exact ((List.forall₂_and_left _ _).mp all).1
    have spelt := ((head.spelt.append (Comparison.spelt_linked length tail)
      (Comparison.ends_linked g.rest texts)).append .closing (ends_cons (Or.inr (Or.inr rfl)))).opening
    have tokens := joinRuns_runsFrom Clause.tokens (List.cons_ne_nil clause []) others
    rw [List.map_singleton, List.intercalate_singleton] at tokens
    rw [← tokens] at spelt
    have tree := ofRuns_runsFrom Clause.tree [clause] others
    have trees : others.map (fun part => (part.1, part.2.tree)) =
        (g.rest.map Comparison.connective).zip (clauses.map Clause.tree) := List.zip_map_right.symm
    rw [List.map_singleton, trees] at tree
    rw [tree]
    refine parseMarked?_eq (List.cons_ne_nil _ _) (by simpa using spelt) fun depth => ?_
    refine takes_group ?_
    have each : ∀ run ∈ runsFrom [clause] others, ∀ c ∈ run, c ∈ clause :: clauses := by
      intro run member c among
      have inside := List.mem_flatten_of_mem member among
      rw [flatten_runsFrom, List.singleton_append] at inside
      rcases List.mem_cons.mp inside with rfl | later
      · exact List.mem_cons_self
      · obtain ⟨part, side, rfl⟩ := List.mem_map.mp later
        exact List.mem_cons_of_mem _ (List.of_mem_zip side).2
    cases depth <;>
      exact takes_disjunction (runsFrom_ne_nil _ _) (mem_runsFrom_ne_nil (List.cons_ne_nil _ _) _)
        fun run member c among => Clause.takes_tokens (fits c (each run member c among)) _

/-- Conditions that can have every truth by themselves can have any truths together. -/
theorem exists_tests {parts : List Tree}
    (decides : ∀ part ∈ parts, Function.Bijective fun v => part.truth [v]) {ws : List Truth}
    (length : ws.length = parts.length) :
    ∃ tests : List Truth, tests.length = parts.length ∧
      List.zipWith (fun part v => part.truth [v]) parts tests = ws := by
  induction parts generalizing ws with
  | nil => exact ⟨[], rfl, (List.length_eq_zero_iff.mp length).symm⟩
  | cons part parts ih =>
    rw [List.forall_mem_cons] at decides
    obtain _ | ⟨w, ws⟩ := ws
    · cases length
    · obtain ⟨v, rfl⟩ := decides.1.surjective w
      obtain ⟨tests, same, rfl⟩ := ih decides.2 (Nat.succ.inj length)
      exact ⟨v :: tests, congrArg Nat.succ same, rfl⟩

/-- Accumulating from the left gives the truth of the condition for all values exactly where no `AND`
comes behind an `OR`. -/
theorem truth_treeOf_eq_accumulate_iff {first : Tree} {others : List Tree}
    (single : ∀ part ∈ first :: others, part.IsSingle)
    (decides : ∀ part ∈ first :: others, Function.Bijective fun v => part.truth [v])
    (length : others.length = g.rest.length) :
    (∀ v ws, ws.length = g.rest.length →
        (g.treeOf first others).truth (v :: ws) =
          accumulate (first.truth [v]) (g.joined others ws)) ↔
      Connective.AndsFirst (g.rest.map Comparison.connective) := by
  constructor
  · intro agree
    rw [List.forall_mem_cons] at decides
    rw [← accumulate_eq_precedence_iff]
    intro w ws length'
    rw [List.length_map] at length'
    obtain ⟨v, rfl⟩ := decides.1.surjective w
    obtain ⟨tests, same, rfl⟩ := exists_tests decides.2 (length'.trans length.symm)
    have enough := same.trans length
    exact (agree v tests enough).symm.trans (truth_treeOf single length v enough)
  · intro ordered v ws length'
    have connectives : (g.joined others ws).map Prod.fst = g.rest.map Comparison.connective :=
      List.map_fst_zip (by simp [length, length'])
    rw [truth_treeOf single length v length', accumulate_eq_precedence _ (connectives ▸ ordered)]

theorem exists_texts {s : Option σ} {text : String}
    (written : ((g.compile : Compile σ String).outcome s).1 = .ok text) :
    ∃ texts, ((g.comparisons.mapM Comparison.compile : Compile σ (List String)).outcome s).1 =
      .ok texts ∧ g.assemble texts = text := by
  rw [compile_eq, map_eq_pure_bind, Compile.outcome_bind] at written
  rcases run : Compile.outcome (g.comparisons.mapM Comparison.compile) s with ⟨_ | texts, after⟩
  · rw [run] at written
    cases written
  · rw [run] at written
    exact ⟨texts, rfl, Except.ok.inj written⟩

/-- A group means its comparisons by precedence. Its text is one condition whose tests are those of
the texts of its comparisons, one for each and in order, and its truth is the one in which `AND` comes
before `OR`. What comes out when the truths of the comparisons are accumulated from the left is never
more, and the same for all truths if and only if no `AND` comes behind an `OR`. -/
theorem truth_by_precedence (readable : ∀ c ∈ g.comparisons, c.IsReadable) {s : Option σ}
    {text : String} (written : ((g.compile : Compile σ String).outcome s).1 = .ok text) :
    ∃ texts first others tree,
      ((g.comparisons.mapM Comparison.compile : Compile σ (List String)).outcome s).1 = .ok texts ∧
      List.Forall₂ (fun text part => parseMarked? text = some part) texts (first :: others) ∧
      (∀ part ∈ first :: others, Function.Bijective fun v => part.truth [v]) ∧
      parseMarked? text = some tree ∧
      tree = g.treeOf first others ∧
      (∃ clauses : List Clause, List.Forall₂ Clause.IsOf clauses g.comparisons ∧
        first :: others = clauses.map Clause.tree ∧ tree.tests = clauses.map Clause.test) ∧
      (∀ v ws, ws.length = g.rest.length →
        (∀ more, tree.run (v :: (ws ++ more)) =
          (precedence (first.truth [v]) (g.joined others ws), more)) ∧
        accumulate (first.truth [v]) (g.joined others ws) ≤ tree.truth (v :: ws)) ∧
      ((∀ v ws, ws.length = g.rest.length →
          tree.truth (v :: ws) = accumulate (first.truth [v]) (g.joined others ws)) ↔
        Connective.AndsFirst (g.rest.map Comparison.connective)) := by
  obtain ⟨texts, compiled, rfl⟩ := exists_texts written
  obtain ⟨clauses, standFor, each⟩ := Comparison.mapM_compile_yields readable s texts compiled
  have length := standFor.length_eq
  cases each with
  | nil => cases length
  | @cons text clause texts clauses head tail =>
    let others := clauses.map Clause.tree
    have same : others.length = g.rest.length := by
      rw [List.length_map]
      exact Nat.succ.inj length
    have sameTexts : texts.length = g.rest.length := by
      rw [tail.length_eq, ← same, List.length_map]
    have tests : (g.treeOf clause.tree others).tests = (clause :: clauses).map Clause.test := by
      rw [tests_treeOf same, ← List.map_cons, List.flatMap_map, List.map_eq_flatMap]
      simp only [Clause.tests_tree]
    have each : ∀ part ∈ clause.tree :: others, ∃ c : Clause, part = c.tree := by
      rw [List.forall_mem_cons]
      exact ⟨⟨clause, rfl⟩, List.forall_mem_map.mpr fun c _ => ⟨c, rfl⟩⟩
    have single : ∀ part ∈ clause.tree :: others, part.IsSingle := by
      intro part member
      obtain ⟨c, rfl⟩ := each part member
      exact c.isSingle_tree
    have decides : ∀ part ∈ clause.tree :: others, Function.Bijective fun v => part.truth [v] := by
      intro part member
      obtain ⟨c, rfl⟩ := each part member
      exact c.bijective_truth
    have read : List.Forall₂ (fun text part => parseMarked? text = some part) texts others :=
      List.forall₂_map_right_iff.mpr (tail.imp fun _ _ h => h.parseMarked?_eq)
    refine ⟨text :: texts, clause.tree, others, g.treeOf clause.tree others, compiled,
      .cons head.parseMarked?_eq read, decides, parseMarked?_assemble sameTexts head tail, rfl,
      ⟨clause :: clauses, standFor, rfl, tests⟩, ?_,
      truth_treeOf_eq_accumulate_iff single decides same⟩
    intro v ws length'
    refine ⟨run_treeOf single same v length', ?_⟩
    rw [truth_treeOf single same v length']
    exact accumulate_le_precedence _ _

/-- A field that is compared with true, which is written as one. -/
def isTrue (field : String) : Comparison := .scalar field .equals (.bool true)

theorem isReadable_isTrue {field : String} (plain : IsPlainWord field.toList) (k : Connective) :
    ((isTrue field).withConnective k).IsReadable :=
  ⟨plain, List.forall_mem_singleton.mpr rfl, nofun, rfl⟩

/-- A group with an `AND` behind an `OR`, a negated test, and a list that is written already. -/
def mixed : Group :=
  ((Group.new (isTrue "a")).or (.scalar "b" .notLike (.text "x%"))).and (.inList "c" "1,2")

theorem isReadable_mixed : ∀ c ∈ mixed.comparisons, c.IsReadable := by
  have second : ((Comparison.scalar "b" .notLike (.text "x%")).withConnective .or).IsReadable :=
    ⟨by decide, by decide, nofun, rfl⟩
  have third : ((Comparison.inList "c" "1,2").withConnective .and).IsReadable := by
    refine ⟨by decide, by decide, fun _ list same => ?_, rfl⟩
    obtain rfl : "1,2" = list := by
      injection same with same
      injection same
    exact ⟨[.constant (.number ⟨false, 1, 0⟩), .constant (.number ⟨false, 2, 0⟩)],
      by decide +kernel⟩
  simp only [mixed, comparisons, and, or, push, new, List.nil_append, List.cons_append,
    List.forall_mem_cons]
  exact ⟨isReadable_isTrue (by decide) .and, second, third, List.forall_mem_nil _⟩

theorem truth_by_precedence_mixed :
    (∀ c ∈ mixed.comparisons, c.IsReadable) ∧
      ((mixed.compile : Compile Bindings String).outcome (some .empty)).1 =
        .ok "(a = @P0 OR NOT b LIKE @P1 AND c IN (1,2))" ∧
      ∃ first others tree,
        List.Forall₂ (fun text part => parseMarked? text = some part)
          ["a = @P0", "NOT b LIKE @P1", "c IN (1,2)"] (first :: others) ∧
        parseMarked? "(a = @P0 OR NOT b LIKE @P1 AND c IN (1,2))" = some tree ∧
        tree.tests.map (fun test => (test.subject, test.predicate)) =
          [(.column "a", .relation .equal), (.column "b", .like), (.column "c", .isIn)] ∧
        ∀ v ws, ws.length = 2 →
          tree.truth (v :: ws) = precedence (first.truth [v]) (mixed.joined others ws) := by
  have written : ((mixed.compile : Compile Bindings String).outcome (some .empty)).1 =
      .ok "(a = @P0 OR NOT b LIKE @P1 AND c IN (1,2))" := by rfl
  obtain ⟨texts, first, others, tree, compiled, parts, -, read, -, ⟨clauses, standFor, -, tests⟩,
    truths, -⟩ := truth_by_precedence isReadable_mixed written
  obtain rfl : ["a = @P0", "NOT b LIKE @P1", "c IN (1,2)"] = texts := Except.ok.inj compiled
  have asked : clauses.map (fun c => (c.test.subject, c.test.predicate)) =
      mixed.comparisons.map fun c => (.column c.field, c.test.predicate) := by
    rw [← List.forall₂_eq_eq_eq, List.forall₂_map_left_iff, List.forall₂_map_right_iff]
    exact standFor.imp fun clause c same => Prod.ext same.subject same.predicate
  refine ⟨isReadable_mixed, written, first, others, tree, parts, read, ?_, fun v ws length => ?_⟩
  · rw [tests, List.map_map]
    exact asked
  have run := (truths v ws length).1 []
  rw [List.append_nil] at run
  rw [Tree.truth, run]

/-- A true first comparison is enough for the text of a group that goes on with an `OR` and an `AND`,
and it is not when the truths are accumulated. A list that is written already may close its
parenthesis and bring in a test that belongs to no comparison. -/
theorem exists_truth_ne_accumulate :
    (∃ (g : Group) (tree : Tree),
      g = ((new (isTrue "a")).or (isTrue "b")).and (isTrue "c") ∧
      (∀ c ∈ g.comparisons, c.IsReadable) ∧
      ((g.compile : Compile Bindings String).outcome none).1 = .ok "(a = 1 OR b = 1 AND c = 1)" ∧
      parseMarked? "(a = 1 OR b = 1 AND c = 1)" = some tree ∧
      tree.truth [.yes, .no, .no] = .yes ∧
      accumulate .yes ((g.rest.map Comparison.connective).zip [.no, .no]) = .no) ∧
    ∃ (g : Group) (tree : Tree),
      g = (new (isTrue "a")).and (.inList "b" "0) OR (c = 1") ∧
      ((g.compile : Compile Bindings String).outcome none).1 =
        .ok "(a = 1 AND b IN (0) OR (c = 1))" ∧
      parseMarked? "(a = 1 AND b IN (0) OR (c = 1))" = some tree ∧
      ∀ v, tree.truth [.no, v, .yes] = .yes ∧
        accumulate .no ((g.rest.map Comparison.connective).zip [v]) = .no := by
  let one (name : String) : Test :=
    ⟨.column name, .relation .equal, [.constant (.number ⟨false, 1, 0⟩)]⟩
  let zero : Test := ⟨.column "b", .isIn, [.constant (.number ⟨false, 0, 0⟩)]⟩
  constructor
  · have lexed : markedTokens? "(a = 1 OR b = 1 AND c = 1)".toList =
        some (.opening :: ((one "a").tokens ++ .keyword .or :: ((one "b").tokens ++
          .keyword .and :: ((one "c").tokens ++ [.closing])))) := by decide +kernel
    refine ⟨_, .group (.any [.test (one "a"), .all [.test (one "b"), .test (one "c")]]), rfl, ?_,
      by rfl, parseMarked?_of_tokens lexed rfl, by decide, by decide⟩
    simp only [comparisons, and, or, push, new, List.nil_append, List.cons_append,
      List.forall_mem_cons]
    exact ⟨isReadable_isTrue (by decide) .and, isReadable_isTrue (by decide) .or,
      isReadable_isTrue (by decide) .and, List.forall_mem_nil _⟩
  · have lexed : markedTokens? "(a = 1 AND b IN (0) OR (c = 1))".toList =
        some (.opening :: ((one "a").tokens ++ .keyword .and :: (zero.tokens ++
          .keyword .or :: .opening :: ((one "c").tokens ++ [.closing, .closing])))) := by
      decide +kernel
    refine ⟨_, .group (.any [.all [.test (one "a"), .test zero], .group (.test (one "c"))]), rfl,
      by rfl, parseMarked?_of_tokens lexed rfl, fun v => ?_⟩
    cases v <;> decide

end Group

end TypedSql
