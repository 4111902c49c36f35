import TypedSql.Proofs.Condition.Writing

/-! The two ways to compile a condition agree. Beside a collection and by itself a condition
compiles or fails alike, and the two texts are one template with placeholders or with literals in
its places. The values behind the placeholders are those that the comparisons bind: no raw value is
among them and no member of a list, so these stand in the fragments of both texts. -/
namespace TypedSql

/-- The bounds of a range, if the operand has two. -/
def Operand.ends (o : Operand) : List Value :=
  match o.bounds? with
  | some (lower, upper) => [lower, upper]
  | none => []

def Operand.scalars : Operand → List Value
  | .scalar v => [v]
  | _ => []

namespace Comparison

/-- The values that the operator sets against the field one by one. It does not do so with the
members of a list. -/
def comparedValues (c : Comparison) : List Value :=
  match c.operator with
  | .isIn | .notIn => []
  | .between | .notBetween => c.operand.ends
  | _ => c.operand.scalars

/-- The values that a comparison binds beside a collection. Where there is no value nothing is
bound, and a raw value is text. -/
def boundValues (c : Comparison) : List Value :=
  if c.operand.isNull then [] else c.comparedValues.filter (!·.isRaw)

theorem isRaw_of_mem_boundValues {c : Comparison} {v : Value} (h : v ∈ c.boundValues) :
    v.isRaw = false := by
  unfold boundValues at h
  split at h
  · contradiction
  · simpa using (List.mem_filter.mp h).2

end Comparison

/-- A draft without a fault has these values in its places. -/
def Draft.Binds (d : Draft) (vs : List Value) : Prop := d.fault = none → d.template.values = vs

namespace Draft.Binds

theorem text (fragment : String) : Binds (.text fragment) [] := fun _ => rfl

theorem stop (e : MalformedComparison) (vs : List Value) : Binds (.stop e) vs := nofun

theorem value (v : Value) : Binds v.draft ([v].filter (!·.isRaw)) := by
  intro
  cases v <;> rfl

theorem append {d e : Draft} {vs us : List Value} (first : d.Binds vs) (last : e.Binds us) :
    (d ++ e).Binds (vs ++ us) := by
  intro complete
  cases fault : d.fault with
  | some f =>
    rw [append_of_fault_eq_some e fault, fault] at complete
    contradiction
  | none =>
    rw [append_of_fault_eq_none e fault] at complete ⊢
    rw [Template.values_append, first fault, last complete]

/-- Drafts behind their connectives bind what each of them binds. -/
theorem chain {α : Type} (connective : α → Connective) {draft : α → Draft} {values : α → List Value}
    (each : ∀ a, (draft a).Binds (values a)) (as : List α) :
    (Draft.chain (as.map fun a => (connective a, draft a))).Binds (as.flatMap values) := by
  induction as with
  | nil => exact .text ""
  | cons a rest ih => exact ((text _).append (each a)).append ih

end Draft.Binds

open Draft

namespace Comparison

theorem draftRange_binds (c : Comparison) :
    c.draftRange.Binds (c.operand.ends.filter (!·.isRaw)) := by
  unfold draftRange Operand.ends
  cases c.operand.bounds? with
  | none => exact .stop _ _
  | some bounds =>
    have written := (((Binds.text (c.subject ++ " BETWEEN ")).append (.value bounds.1)).append
      (.text " AND ")).append (.value bounds.2)
    simpa only [List.nil_append, List.append_nil, ← List.filter_append,
      List.singleton_append] using written

theorem draftBinary_binds (c : Comparison) :
    c.draftBinary.Binds (c.operand.scalars.filter (!·.isRaw)) := by
  unfold draftBinary
  cases c.operand with
  | scalar v => exact (Binds.text _).append (.value v)
  | raw sql => exact .text _
  | null | pair | sequence => exact .stop _ _

theorem draft_binds (c : Comparison) : c.draft.Binds c.boundValues := by
  unfold draft boundValues comparedValues
  split
  · exact .text _
  · cases c.operator with
    | between | notBetween => exact c.draftRange_binds
    | isIn | notIn => exact .text _
    | _ => exact c.draftBinary_binds

end Comparison

theorem Group.draft_binds (g : Group) :
    g.draft.Binds (g.comparisons.flatMap Comparison.boundValues) := by
  unfold draft comparisons
  split
  case isTrue single =>
    rw [List.isEmpty_iff.mp single, List.flatMap_singleton]
    exact g.first.draft_binds
  case isFalse =>
    have written := (((Binds.text "(").append g.first.draft_binds).append
      (.chain Comparison.connective Comparison.draft_binds g.rest)).append (.text ")")
    simpa only [List.nil_append, List.append_nil, List.flatMap_cons, Comparison.draftRest] using
      written

theorem Condition.draft_binds (p : Condition) :
    p.draft.Binds (p.comparisons.flatMap Comparison.boundValues) := by
  unfold draft comparisons
  rw [List.flatMap_assoc]
  cases p.groups with
  | nil => exact .text ""
  | cons g rest => exact g.draft_binds.append (.chain (fun _ => p.connective) Group.draft_binds rest)

section Agreement

variable {σ : Type} [Sink σ]

/-- A collection that only grows at its end keeps what it had, followed by the parameters of the
template. -/
theorem Sink.contents_addAll {contents : σ → List Parameter}
    (grows : ∀ s p, contents (Sink.add s p) = contents s ++ [p]) (s : σ) (ps : List Parameter) :
    contents (Sink.addAll s ps) = contents s ++ ps := by
  induction ps generalizing s with
  | nil => exact (List.append_nil _).symm
  | cons p rest ih =>
    have step : Sink.addAll s (p :: rest) = Sink.addAll (Sink.add s p) rest := rfl
    rw [step, ih, grows, List.append_assoc, List.singleton_append]

/-- Beside a collection a condition compiles if and only if it does by itself. The two texts are
then one template, whose places hold placeholders numbered from the count of the collection, or
literals. The collection has got the parameters of these placeholders, in order and behind all that
it held. Their values are those that the comparisons bind, and none of them is raw. -/
theorem Condition.compile_agrees_with_toSql [LawfulSink σ] (p : Condition) (s : σ) :
    ((∃ text, (Compile.outcome p.compile (some s)).1 = .ok text) ↔ ∃ text, p.toSql = .ok text) ∧
    ∀ bound inline, (Compile.outcome p.compile (some s)).1 = .ok bound → p.toSql = .ok inline →
      ∃ t : Template, bound = t.bound (Sink.count s) ∧ inline = t.inline ∧
        (Compile.outcome p.compile (some s)).2 =
          some (Sink.addAll s (t.parameters (Sink.count s))) ∧
        (∀ contents : σ → List Parameter,
          (∀ s p, contents (Sink.add s p) = contents s ++ [p]) →
          contents (Sink.addAll s (t.parameters (Sink.count s))) =
            contents s ++ t.values.mapIdx fun i v => ⟨.numbered (Sink.count s + i), v⟩) ∧
        t.values = p.comparisons.flatMap Comparison.boundValues ∧
        ∀ v ∈ t.values, v.isRaw = false := by
  have inlineEq := p.toSql_eq
  rw [p.compile_follows (some s)]
  cases fault : p.draft.fault with
  | some e =>
    simp only [fault] at inlineEq
    simp [Draft.outcome, fault, inlineEq]
  | none =>
    simp only [fault] at inlineEq
    have values := p.draft_binds fault
    constructor
    · simp [Draft.outcome, fault, inlineEq]
    · intro bound inline boundEq literalEq
      simp only [Draft.outcome, fault, Except.ok.injEq] at boundEq
      rw [inlineEq, Except.ok.injEq] at literalEq
      refine ⟨p.draft.template, boundEq.symm, literalEq.symm, rfl, ?_, values, ?_⟩
      · intro contents grows
        rw [Sink.contents_addAll grows, Template.parameters_eq_mapIdx]
      · intro v member
        rw [values] at member
        obtain ⟨c, _, member⟩ := List.mem_flatMap.mp member
        exact Comparison.isRaw_of_mem_boundValues member

end Agreement

/-- A range with a raw bound, a list and a text. -/
def Condition.mixed : Condition :=
  let small : Value := .integer ⟨18, by decide, by decide⟩
  ⟨[⟨.between "age" small (.raw "(SELECT 65)"),
      [.notIn "id" [small, .bool true],
        (Comparison.scalar "name" .like (.text "O'B%")).withConnective .or]⟩,
    .new (.isNull "gone")], .and⟩

def Bindings.held : Bindings := ⟨[⟨.positional, .null⟩]⟩

theorem Condition.compile_agrees_with_toSql_mixed :
    let bound :=
      "(age BETWEEN @P1 AND (SELECT 65) AND NOT id IN (18,1) OR name LIKE @P2) AND gone IS NULL"
    let inline :=
      "(age BETWEEN 18 AND (SELECT 65) AND NOT id IN (18,1) OR name LIKE 'O''B%') AND gone IS NULL"
    LawfulSink Bindings ∧
    (Compile.outcome mixed.compile (some Bindings.held)).1 = .ok bound ∧
    mixed.toSql = .ok inline ∧
    ∃ t : Template, bound = t.bound 1 ∧ inline = t.inline ∧
      t.values.length = 2 ∧ ∀ v ∈ t.values, v.isRaw = false := by
  intro bound inline
  have compiled : (Compile.outcome mixed.compile (some Bindings.held)).1 = .ok bound := by rfl
  have written : mixed.toSql = .ok inline := by rfl
  refine ⟨inferInstance, compiled, written, ?_⟩
  obtain ⟨t, boundEq, inlineEq, _, _, values, raw⟩ :=
    (compile_agrees_with_toSql mixed Bindings.held).2 _ _ compiled written
  exact ⟨t, boundEq, inlineEq, by rw [values]; rfl, raw⟩

end TypedSql
