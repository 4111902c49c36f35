import Mathlib.Data.List.Forall2
import TypedSql.Proofs.Condition.Writing

/-! Beside a collection the values that are bound do not show in the text. Conditions that differ in
nothing else leave the same template but for the values in its places, so they compile to one text
with one list of names, or none of them compiles. -/
namespace TypedSql

/-- Either of two values can be in the other's place: both are one raw text, or neither is raw. -/
inductive Value.Interchangeable : Value → Value → Prop
  | raw (sql : String) : Interchangeable (.raw sql) (.raw sql)
  | bound {v w : Value} (first : v.isRaw = false) (second : w.isRaw = false) : Interchangeable v w

/-- Right of this operator either operand can be in the other's place: they are one operand, two
values that a comparison binds, or the two ends of ranges. -/
inductive Operand.Interchangeable (o : Operator) : Operand → Operand → Prop
  | same (a : Operand) : Interchangeable o a a
  | scalars {v w : Value} (compared : o ≠ .isIn ∧ o ≠ .notIn)
      (first : v.isNull = false ∧ v.isRaw = false) (second : w.isNull = false ∧ w.isRaw = false) :
      Interchangeable o (.scalar v) (.scalar w)
  | ranges {a b : Operand} {lower upper lower' upper' : Value}
      (range : o = .between ∨ o = .notBetween) (first : a.bounds? = some (lower, upper))
      (second : b.bounds? = some (lower', upper')) (low : lower.Interchangeable lower')
      (high : upper.Interchangeable upper') : Interchangeable o a b

/-- The same test, but for values that can be interchanged. -/
structure Comparison.Interchangeable (c d : Comparison) : Prop where
  field : c.field = d.field
  operator : c.operator = d.operator
  connective : c.connective = d.connective
  operand : c.operand.Interchangeable c.operator d.operand

structure Group.Interchangeable (g h : Group) : Prop where
  first : g.first.Interchangeable h.first
  rest : List.Forall₂ Comparison.Interchangeable g.rest h.rest

structure Condition.Interchangeable (p q : Condition) : Prop where
  groups : List.Forall₂ Group.Interchangeable p.groups q.groups
  connective : p.connective = q.connective

/-- The same fragments around as many places. -/
inductive Template.Alike : Template → Template → Prop
  | last (fragment : String) : Alike (.last fragment) (.last fragment)
  | slot (fragment : String) (v w : Value) {t u : Template} (rest : Alike t u) :
      Alike (.slot fragment v t) (.slot fragment w u)

namespace Template.Alike

variable {t u t' u' : Template}

theorem refl (t : Template) : Alike t t := by
  induction t with
  | last fragment => exact .last fragment
  | slot fragment v rest ih => exact .slot fragment v v ih

theorem prepend (text : String) (alike : Alike t u) : Alike (t.prepend text) (u.prepend text) := by
  cases alike with
  | last fragment => exact .last _
  | slot fragment v w rest => exact .slot _ v w rest

theorem append (first : Alike t u) (last : Alike t' u') : Alike (t ++ t') (u ++ u') := by
  induction first with
  | last fragment => exact last.prepend fragment
  | slot fragment v w _ ih => exact .slot fragment v w ih

/-- Values do not reach the text that has placeholders. -/
theorem bound_eq (alike : Alike t u) (n : Nat) : t.bound n = u.bound n := by
  induction alike generalizing n with
  | last fragment => rfl
  | slot fragment v w _ ih => rw [bound, bound, ih]

theorem placeholders_eq (alike : Alike t u) (n : Nat) :
    (t.parameters n).map (·.placeholder) = (u.parameters n).map (·.placeholder) := by
  induction alike generalizing n with
  | last fragment => rfl
  | slot fragment v w _ ih => rw [parameters, parameters, List.map_cons, List.map_cons, ih]

end Template.Alike

/-- Drafts of one shape: both are complete or both end in a fault. -/
structure Draft.Alike (d e : Draft) : Prop where
  template : d.template.Alike e.template
  fault : d.fault = none ↔ e.fault = none

namespace Draft.Alike

variable {d e d' e' : Draft}

theorem refl (d : Draft) : Alike d d := ⟨.refl _, Iff.rfl⟩

theorem stop (f g : MalformedComparison) : Alike (.stop f) (.stop g) :=
  ⟨.last "", iff_of_false nofun nofun⟩

theorem faults (alike : Alike d e) :
    (∃ f g, d.fault = some f ∧ e.fault = some g) ∨ d.fault = none ∧ e.fault = none := by
  cases fault : d.fault with
  | none => exact Or.inr ⟨rfl, alike.fault.mp fault⟩
  | some f =>
    have other : e.fault ≠ none := fun none => nomatch fault.symm.trans (alike.fault.mpr none)
    obtain ⟨g, fault'⟩ := Option.ne_none_iff_exists'.mp other
    exact Or.inl ⟨f, g, rfl, fault'⟩

theorem append (first : Alike d e) (last : Alike d' e') : Alike (d ++ d') (e ++ e') := by
  rcases first.faults with ⟨f, g, fault, fault'⟩ | ⟨fault, fault'⟩
  · rw [append_of_fault_eq_some d' fault, append_of_fault_eq_some e' fault']
    exact first
  · rw [append_of_fault_eq_none d' fault, append_of_fault_eq_none e' fault']
    exact ⟨first.template.append last.template, last.fault⟩

/-- Parts behind the same connectives. -/
theorem chain {α : Type} {related : α → α → Prop} {connective connective' : α → Connective}
    {draft : α → Draft} {as bs : List α}
    (each : ∀ a b, related a b → connective a = connective' b ∧ (draft a).Alike (draft b))
    (all : List.Forall₂ related as bs) :
    Alike (.chain (as.map fun a => (connective a, draft a)))
      (.chain (bs.map fun b => (connective' b, draft b))) := by
  induction all with
  | nil => exact .refl _
  | cons first _ ih =>
    obtain ⟨same, alike⟩ := each _ _ first
    rw [List.map_cons, List.map_cons, same]
    exact ((refl _).append alike).append ih

end Draft.Alike

open Draft

theorem Value.draft_of_not_isRaw {v : Value} (h : v.isRaw = false) :
    v.draft = ⟨.slot "" v (.last ""), none⟩ := by
  cases v with
  | raw sql => contradiction
  | _ => rfl

theorem Value.Interchangeable.draft_alike {v w : Value} (h : v.Interchangeable w) :
    v.draft.Alike w.draft := by
  cases h with
  | raw sql => exact .refl _
  | bound first second =>
    rw [Value.draft_of_not_isRaw first, Value.draft_of_not_isRaw second]
    exact ⟨.slot "" v w (.last ""), Iff.rfl⟩

theorem Operand.isNull_of_bounds? {o : Operand} {bounds : Value × Value}
    (h : o.bounds? = some bounds) : o.isNull = false := by
  cases o with
  | pair | sequence => rfl
  | null | scalar | raw => contradiction

namespace Comparison

variable {c d : Comparison}

theorem draft_of_present (present : c.operand.isNull = false) :
    c.draft =
      match c.operator with
      | .between | .notBetween => c.draftRange
      | .isIn | .notIn => .text (c.subject ++ " IN (" ++ c.operand.memberList ++ ")")
      | _ => c.draftBinary := by
  rw [draft, present]
  rfl

/-- Two values that are bound leave the same place, and two single values are no range. -/
theorem draft_alike_of_scalars {field : String} {o : Operator} {v w : Value} {k : Connective}
    (compared : o ≠ .isIn ∧ o ≠ .notIn) (first : v.isNull = false ∧ v.isRaw = false)
    (second : w.isNull = false ∧ w.isRaw = false) :
    (draft ⟨field, o, .scalar v, k⟩).Alike (draft ⟨field, o, .scalar w, k⟩) := by
  have places : v.draft.Alike w.draft :=
    (Value.Interchangeable.bound first.2 second.2).draft_alike
  rw [draft_of_present (c := ⟨field, o, .scalar v, k⟩) first.1,
    draft_of_present (c := ⟨field, o, .scalar w, k⟩) second.1]
  cases o with
  | isIn => exact absurd rfl compared.1
  | notIn => exact absurd rfl compared.2
  | between | notBetween => exact .stop _ _
  | _ => exact (Alike.refl _).append places

theorem draftRange_alike {lower upper lower' upper' : Value} (field : c.field = d.field)
    (operator : c.operator = d.operator) (first : c.operand.bounds? = some (lower, upper))
    (second : d.operand.bounds? = some (lower', upper')) (low : lower.Interchangeable lower')
    (high : upper.Interchangeable upper') : c.draftRange.Alike d.draftRange := by
  have subject : c.subject = d.subject := by rw [Comparison.subject, field, operator, subject]
  rw [draftRange, draftRange, first, second, subject]
  exact (((Alike.refl _).append low.draft_alike).append (.refl _)).append high.draft_alike

theorem Interchangeable.draft_alike (h : c.Interchangeable d) : c.draft.Alike d.draft := by
  obtain ⟨field, o, a, k⟩ := c
  obtain ⟨field', o', b, k'⟩ := d
  obtain ⟨rfl, rfl, rfl, operand⟩ := h
  cases operand with
  | same => exact .refl _
  | scalars compared first second => exact draft_alike_of_scalars compared first second
  | ranges range first second low high =>
    have ranges := draftRange_alike (c := ⟨field, o, a, k⟩) (d := ⟨field, o, b, k⟩) rfl rfl first
      second low high
    rw [draft_of_present (Operand.isNull_of_bounds? first),
      draft_of_present (Operand.isNull_of_bounds? second)]
    rcases range with rfl | rfl <;> exact ranges

end Comparison

theorem Group.Interchangeable.draft_alike {g h : Group} (alike : g.Interchangeable h) :
    g.draft.Alike h.draft := by
  obtain ⟨first, rest⟩ := g
  obtain ⟨first', rest'⟩ := h
  obtain ⟨same, others⟩ := alike
  have parts : (Comparison.draftRest rest).Alike (Comparison.draftRest rest') :=
    .chain (fun _ _ h => ⟨h.connective, h.draft_alike⟩) others
  cases others with
  | nil => exact same.draft_alike
  | cons => exact (((Alike.refl _).append same.draft_alike).append parts).append (.refl _)

theorem Condition.Interchangeable.draft_alike {p q : Condition} (alike : p.Interchangeable q) :
    p.draft.Alike q.draft := by
  obtain ⟨groups, connective⟩ := p
  obtain ⟨groups', connective'⟩ := q
  obtain ⟨groups, rfl⟩ := alike
  cases groups with
  | nil => exact .refl _
  | cons first rest =>
    exact first.draft_alike.append (.chain (fun _ _ h => ⟨rfl, h.draft_alike⟩) rest)

section Runs

variable {σ τ : Type} [Sink σ] [LawfulSink σ] [Sink τ] [LawfulSink τ]

/-- Bound values do not influence the text. Two conditions that differ in such values only, compiled
beside collections with equal counts, add parameters under the same names, and either both fail or
both give the same text. -/
theorem Condition.compile_ignores_bound_values {p q : Condition} (alike : p.Interchangeable q)
    (s : σ) (r : τ) (counts : Sink.count s = Sink.count r) :
    ∃ ps qs : List Parameter,
      (Compile.outcome p.compile (some s)).2 = some (Sink.addAll s ps) ∧
      (Compile.outcome q.compile (some r)).2 = some (Sink.addAll r qs) ∧
      ps.length = qs.length ∧ ps.map (·.name) = qs.map (·.name) ∧
      ((∃ e f, (Compile.outcome p.compile (some s)).1 = .error e ∧
          (Compile.outcome q.compile (some r)).1 = .error f) ∨
        ∃ text, (Compile.outcome p.compile (some s)).1 = .ok text ∧
          (Compile.outcome q.compile (some r)).1 = .ok text) := by
  have drafts := alike.draft_alike
  have placeholders := drafts.template.placeholders_eq (Sink.count s)
  rw [p.compile_follows (some s), q.compile_follows (some r)]
  refine ⟨p.draft.template.parameters (Sink.count s), q.draft.template.parameters (Sink.count r),
    rfl, rfl, ?_, ?_, ?_⟩
  · rw [← counts]
    simpa only [List.length_map] using congrArg List.length placeholders
  · rw [← counts]
    simpa only [List.map_map] using! congrArg (List.map Placeholder.text) placeholders
  · rcases drafts.faults with ⟨e, f, fault, fault'⟩ | ⟨fault, fault'⟩
    · exact Or.inl ⟨e, f, by rw [Draft.outcome, fault], by rw [Draft.outcome, fault']⟩
    · have text := drafts.template.bound_eq (Sink.count s)
      refine Or.inr ⟨p.draft.template.bound (Sink.count s), ?_, ?_⟩
      · rw [Draft.outcome, fault]
        rfl
      · rw [Draft.outcome, fault', text, counts]
        rfl

end Runs

/-- A test of a name, a range of ages with a raw end, and a list. -/
def Condition.search (name : Value) (ages : Operand) : Condition :=
  ⟨[⟨.scalar "name" .equals name, [(Comparison.new "age" .notBetween ages).withConnective .or]⟩,
    .new (.isIn "id" [.bool true])], .and⟩

/-- The ends of one range are a pair and those of the other a sequence, and the collections are of
two kinds. -/
theorem Condition.compile_ignores_bound_values_search :
    ∃ (p q : Condition) (s : Bindings) (r : OffsetBindings), p ≠ q ∧ p.Interchangeable q ∧
      Sink.count s = Sink.count r ∧
      (Compile.outcome p.compile (some s)).1 =
        .ok "(name = @P1 OR NOT age BETWEEN @P2 AND max_age) AND id IN (1)" ∧
      (Compile.outcome q.compile (some r)).1 =
        .ok "(name = @P1 OR NOT age BETWEEN @P2 AND max_age) AND id IN (1)" := by
  have name : Comparison.Interchangeable (.scalar "name" .equals (.text "x' OR 1=1 --"))
      (.scalar "name" .equals (.blob [39])) :=
    ⟨rfl, rfl, rfl, .scalars (by decide) (by decide) (by decide)⟩
  have ages : Operand.Interchangeable .notBetween (.pair .null (.raw "max_age"))
      (.sequence [.text "18", .raw "max_age"]) :=
    .ranges (Or.inr rfl) rfl rfl (.bound rfl rfl) (.raw "max_age")
  have alike : (search (.text "x' OR 1=1 --") (.pair .null (.raw "max_age"))).Interchangeable
      (search (.blob [39]) (.sequence [.text "18", .raw "max_age"])) :=
    ⟨.cons ⟨name, .cons ⟨rfl, rfl, rfl, ages⟩ .nil⟩
      (.cons ⟨⟨rfl, rfl, rfl, .same _⟩, .nil⟩ .nil), rfl⟩
  have first : (Compile.outcome
      (search (.text "x' OR 1=1 --") (.pair .null (.raw "max_age"))).compile
      (some (⟨[⟨.positional, .null⟩]⟩ : Bindings))).1 =
        .ok "(name = @P1 OR NOT age BETWEEN @P2 AND max_age) AND id IN (1)" := by rfl
  obtain ⟨_, _, _, _, _, _, failed | ⟨text, same, second⟩⟩ :=
    compile_ignores_bound_values alike (⟨[⟨.positional, .null⟩]⟩ : Bindings)
      (⟨1, []⟩ : OffsetBindings) rfl
  · obtain ⟨e, _, error, _⟩ := failed
    rw [first] at error
    contradiction
  · rw [first, Except.ok.injEq] at same
    exact ⟨_, _, _, _, by decide, alike, rfl, first, same ▸ second⟩

end TypedSql
