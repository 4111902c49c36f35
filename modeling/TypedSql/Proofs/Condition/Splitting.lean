import TypedSql.Proofs.Condition.Stopping

/-! Conditions that share a collection. The groups of a condition can be cut into two conditions
that are compiled one after the other: the second goes on with the numbers of the first, and the two
texts with the connective between them are the text of the whole. Where one of the two fails, the
whole fails with its error and leaves what it leaves. -/
namespace TypedSql

namespace Compile

variable {σ α β : Type} {m : Compile σ α} {k : α → Compile σ β} {s left : Option σ}

theorem outcome_bind_eq_ok_iff {b : β} :
    (m >>= k).outcome s = (.ok b, left) ↔
      ∃ a middle, m.outcome s = (.ok a, middle) ∧ (k a).outcome middle = (.ok b, left) := by
  rw [outcome_bind]
  rcases m.outcome s with ⟨e | a, middle⟩ <;> simp [and_assoc]

theorem outcome_bind_eq_error_iff {e : MalformedComparison} :
    (m >>= k).outcome s = (.error e, left) ↔
      m.outcome s = (.error e, left) ∨
        ∃ a middle, m.outcome s = (.ok a, middle) ∧ (k a).outcome middle = (.error e, left) := by
  rw [outcome_bind]
  rcases m.outcome s with ⟨e | a, middle⟩ <;> simp [and_assoc]

end Compile

namespace Condition

section Parts

variable {σ : Type} [Sink σ] {k : Connective} {first last : List Group}

theorem compileRest_append (k : Connective) (first last : List Group) :
    compileRest (σ := σ) k (first ++ last) =
      (do let text ← compileRest k first; let tail ← compileRest k last; pure (text ++ tail)) := by
  induction first with
  | nil => simp only [List.nil_append, compileRest, pure_bind, String.empty_append, bind_pure]
  | cons g rest ih =>
    simp only [List.cons_append, compileRest, ih, bind_assoc, pure_bind, String.append_assoc]

/-- Groups that others precede are a condition of their own behind the connective. -/
theorem compileRest_of_ne_nil (nonempty : last ≠ []) :
    compileRest (σ := σ) k last =
      (do let text ← compile ⟨last, k⟩; pure (k.separator ++ text)) := by
  cases last with
  | nil => contradiction
  | cons g rest =>
    simp only [compile, compileGroups, compileRest, bind_assoc, pure_bind, String.append_assoc]

theorem compile_append_eq (nonempty : first ≠ []) (nonempty' : last ≠ []) :
    compile (σ := σ) ⟨first ++ last, k⟩ =
      (do
        let text ← compile ⟨first, k⟩
        let tail ← compile ⟨last, k⟩
        pure (text ++ k.separator ++ tail)) := by
  cases first with
  | nil => contradiction
  | cons g rest =>
    simp only [compile, List.cons_append, compileGroups, compileRest_append,
      compileRest_of_ne_nil nonempty', bind_assoc, pure_bind, String.append_assoc]

/-- Without a collection nothing depends on the kind of collection, and none appears. -/
theorem outcome_none (p : Condition) :
    Compile.outcome (compile (σ := σ) p) none = (p.toSql, none) := by
  have same : ∀ t : Template, t.fill (none : Option σ) = (t.inline, none) := by
    intro t
    induction t with
    | last fragment => rfl
    | slot fragment v rest ih => simp only [Template.fill, Value.write, ih, Template.inline]
  rw [p.compile_fills none, Draft.fill, same]
  exact congrArg (·, none) p.toSql_eq.symm

theorem toSql_append (nonempty : first ≠ []) (nonempty' : last ≠ []) :
    toSql ⟨first ++ last, k⟩ =
      (do
        let text ← toSql ⟨first, k⟩
        let tail ← toSql ⟨last, k⟩
        pure (text ++ k.separator ++ tail)) := by
  have whole := outcome_none (σ := Bindings) ⟨first ++ last, k⟩
  rw [compile_append_eq nonempty nonempty'] at whole
  simp only [Compile.outcome_bind, outcome_none] at whole
  cases front : toSql ⟨first, k⟩ with
  | error e =>
    rw [front] at whole
    exact (congrArg Prod.fst whole).symm
  | ok text =>
    simp only [front, outcome_none] at whole
    cases back : toSql ⟨last, k⟩ with
    | error e =>
      rw [back] at whole
      exact (congrArg Prod.fst whole).symm
    | ok tail =>
      rw [back] at whole
      exact (congrArg Prod.fst whole).symm

end Parts

/-- Groups that are cut in two are compiled in two steps. From every collection, and from none, the
whole succeeds if and only if both steps do, the second from what the first leaves; its text is then
the two texts with the connective between them, and it leaves what the second step leaves. It fails
if and only if one of the steps does, with the error of the first such step and what that step
leaves. -/
theorem compile_in_two_steps {σ : Type} [Sink σ] (k : Connective) {first last : List Group}
    (nonempty : first ≠ []) (nonempty' : last ≠ []) (s : Option σ) :
    (∀ text left, Compile.outcome (compile ⟨first ++ last, k⟩) s = (.ok text, left) ↔
      ∃ head tail middle, Compile.outcome (compile ⟨first, k⟩) s = (.ok head, middle) ∧
        Compile.outcome (compile ⟨last, k⟩) middle = (.ok tail, left) ∧
        text = head ++ k.separator ++ tail) ∧
    (∀ e left, Compile.outcome (compile ⟨first ++ last, k⟩) s = (.error e, left) ↔
      Compile.outcome (compile ⟨first, k⟩) s = (.error e, left) ∨
        ∃ head middle, Compile.outcome (compile ⟨first, k⟩) s = (.ok head, middle) ∧
          Compile.outcome (compile ⟨last, k⟩) middle = (.error e, left)) ∧
    toSql ⟨first ++ last, k⟩ =
      (do
        let head ← toSql ⟨first, k⟩
        let tail ← toSql ⟨last, k⟩
        pure (head ++ k.separator ++ tail)) := by
  refine ⟨?_, ?_, toSql_append nonempty nonempty'⟩
  · intro text left
    simp only [compile_append_eq nonempty nonempty', Compile.outcome_bind_eq_ok_iff,
      Compile.outcome_pure, Prod.mk.injEq, Except.ok.injEq]
    constructor
    · rintro ⟨head, middle, first, tail, _, last, rfl, rfl⟩
      exact ⟨head, tail, middle, first, last, rfl⟩
    · rintro ⟨head, tail, middle, first, last, rfl⟩
      exact ⟨head, middle, first, tail, left, last, rfl, rfl⟩
  · intro e left
    simp only [compile_append_eq nonempty nonempty', Compile.outcome_bind_eq_error_iff,
      Compile.outcome_pure, Prod.mk.injEq, reduceCtorEq, false_and, and_false, exists_false, or_false]

/-- The first part binds two values and the second two more before it stops. -/
theorem compile_in_two_steps_stopped :
    mixed.groups ≠ [] ∧ halted.groups ≠ [] ∧
      Compile.outcome (compile ⟨mixed.groups ++ halted.groups, .or⟩) (some Bindings.held) =
        (.error ⟨"size", .notBetween, "sequence of 1"⟩,
          some ⟨[⟨.positional, .null⟩, ⟨.numbered 1, .integer ⟨18, by decide, by decide⟩⟩,
            ⟨.numbered 2, .text "O'B%"⟩, ⟨.numbered 3, .bool true⟩,
            ⟨.numbered 4, .text "O'B%"⟩]⟩) := by
  have nonempty : mixed.groups ≠ [] := by decide
  have nonempty' : halted.groups ≠ [] := by decide
  obtain ⟨_, fails, _⟩ := compile_in_two_steps .or nonempty nonempty' (some Bindings.held)
  exact ⟨nonempty, nonempty', (fails _ _).mpr (Or.inr ⟨_, _, rfl, rfl⟩)⟩

end Condition

end TypedSql
