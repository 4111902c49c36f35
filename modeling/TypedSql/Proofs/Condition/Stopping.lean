import TypedSql.Proofs.Condition.Modes

/-! Where the compilation of a condition stops. The first comparison whose operand does not fit its
operator ends it, beside every collection and by itself alike. What the comparisons before that one
bind stays bound, and nothing else is. -/
namespace TypedSql

namespace Operand

/-- A pair, or a sequence of two. -/
def isRange : Operand → Bool
  | .pair _ _ | .sequence [_, _] => true
  | _ => false

/-- A pair or a sequence, of whatever length. -/
def isCompound : Operand → Bool
  | .pair _ _ | .sequence _ => true
  | _ => false

theorem isRange_eq (o : Operand) : o.isRange = o.bounds?.isSome := by
  rcases o with _ | v | ⟨lower, upper⟩ | (_ | ⟨a, _ | ⟨b, _ | ⟨c, vs⟩⟩⟩) | sql <;> rfl

end Operand

namespace Comparison

/-- There is a value, and it is none that the operator takes: no two ends for a range, or several
values for an operator that compares with one. -/
def isMalformed (c : Comparison) : Bool :=
  !c.operand.isNull &&
    match c.operator with
    | .between | .notBetween => !c.operand.isRange
    | .isIn | .notIn => false
    | _ => c.operand.isCompound

end Comparison

section Progress

namespace Draft

@[simp] theorem fault_text (fragment : String) : (text fragment).fault = none := rfl

@[simp] theorem fault_value (v : Value) : v.draft.fault = none := by
  cases v <;> rfl

/-- The draft ends in the fault, if there is one, with no value before it. -/
def EndsIn (d : Draft) (fault : Option MalformedComparison) : Prop :=
  d.fault = fault ∧ (fault ≠ none → d.template.values = [])

end Draft

namespace Comparison

open Draft

variable {c : Comparison}

theorem draftRange_endsIn (c : Comparison) :
    c.draftRange.EndsIn (if c.operand.isRange then none else some c.malformed) := by
  rw [Operand.isRange_eq]
  unfold draftRange
  cases c.operand.bounds? with
  | none => exact ⟨rfl, fun _ => rfl⟩
  | some bounds =>
    constructor
    · simp [fault_append]
    · simp

theorem draftBinary_endsIn (present : c.operand.isNull = false) :
    c.draftBinary.EndsIn (if c.operand.isCompound then some c.malformed else none) := by
  unfold draftBinary
  cases operand : c.operand with
  | null => simp [operand, Operand.isNull] at present
  | scalar v =>
    constructor
    · simp [fault_append, Operand.isCompound]
    · simp [Operand.isCompound]
  | raw sql => exact ⟨rfl, fun faulty => absurd rfl faulty⟩
  | pair | sequence => exact ⟨rfl, fun _ => rfl⟩

/-- A malformed comparison is noticed before any of its values is bound. -/
theorem draft_endsIn (c : Comparison) :
    c.draft.EndsIn (if c.isMalformed then some c.malformed else none) := by
  unfold draft isMalformed
  by_cases null : c.operand.isNull = true
  · rw [if_pos null, null]
    exact ⟨rfl, fun faulty => absurd rfl faulty⟩
  · rw [if_neg null]
    rw [Bool.not_eq_true] at null
    rw [null]
    cases c.operator with
    | between | notBetween =>
      have range := c.draftRange_endsIn
      cases fits : c.operand.isRange <;> simpa [fits] using range
    | isIn | notIn => exact ⟨rfl, fun faulty => absurd rfl faulty⟩
    | _ => exact draftBinary_endsIn null

/-- What comparisons bind one after the other, and the fault at which this ends. -/
def progress : List Comparison → List Value × Option MalformedComparison
  | [] => ([], none)
  | c :: rest =>
    if c.isMalformed then ([], some c.malformed)
    else
      let (vs, fault) := progress rest
      (c.boundValues ++ vs, fault)

variable {before after cs ds : List Comparison}

theorem progress_append_of_sound (sound : ∀ c ∈ cs, c.isMalformed = false) (ds : List Comparison) :
    progress (cs ++ ds) = (cs.flatMap boundValues ++ (progress ds).1, (progress ds).2) := by
  induction cs with
  | nil => rfl
  | cons c rest ih =>
    rw [List.forall_mem_cons] at sound
    rw [List.cons_append, progress, sound.1, ih sound.2]
    simp

theorem progress_of_sound (sound : ∀ c ∈ cs, c.isMalformed = false) :
    progress cs = (cs.flatMap boundValues, none) := by
  simpa [progress] using progress_append_of_sound sound []

theorem progress_of_first_malformed (sound : ∀ b ∈ before, b.isMalformed = false)
    (malformed : c.isMalformed = true) :
    progress (before ++ c :: after) = (before.flatMap boundValues, some c.malformed) := by
  rw [progress_append_of_sound sound, progress, malformed]
  simp

/-- Either no comparison is malformed or there is a first one. -/
theorem sound_or_first_malformed (cs : List Comparison) :
    (∀ c ∈ cs, c.isMalformed = false) ∨
      ∃ before c after, cs = before ++ c :: after ∧ (∀ b ∈ before, b.isMalformed = false) ∧
        c.isMalformed = true := by
  induction cs with
  | nil => exact Or.inl (List.forall_mem_nil _)
  | cons c rest ih =>
    cases malformed : c.isMalformed with
    | true => exact Or.inr ⟨[], c, rest, rfl, List.forall_mem_nil _, malformed⟩
    | false =>
      rcases ih with sound | ⟨before, d, after, rfl, sound, first⟩
      · exact Or.inl (List.forall_mem_cons.mpr ⟨malformed, sound⟩)
      · exact Or.inr ⟨c :: before, d, after, rfl, List.forall_mem_cons.mpr ⟨malformed, sound⟩, first⟩

theorem progress_append (cs ds : List Comparison) :
    progress (cs ++ ds) =
      match (progress cs).2 with
      | none => ((progress cs).1 ++ (progress ds).1, (progress ds).2)
      | some _ => progress cs := by
  rcases sound_or_first_malformed cs with sound | ⟨before, c, after, rfl, sound, malformed⟩
  · rw [progress_append_of_sound sound, progress_of_sound sound]
  · rw [List.append_assoc, List.cons_append, progress_of_first_malformed sound malformed,
      progress_of_first_malformed sound malformed]

end Comparison

/-- The draft of comparisons in order, up to the first malformed one. -/
def Draft.Progresses (d : Draft) (cs : List Comparison) : Prop :=
  (d.template.values, d.fault) = Comparison.progress cs

namespace Draft.Progresses

theorem text (fragment : String) : Progresses (.text fragment) [] := rfl

theorem append {d e : Draft} {cs ds : List Comparison} (first : d.Progresses cs)
    (last : e.Progresses ds) : (d ++ e).Progresses (cs ++ ds) := by
  unfold Progresses at first last ⊢
  rw [Comparison.progress_append, ← first, ← last]
  cases fault : d.fault with
  | none => rw [append_of_fault_eq_none e fault, Template.values_append]
  | some f => rw [append_of_fault_eq_some e fault, fault]

/-- Drafts behind their connectives go through all of their comparisons. -/
theorem chain {α : Type} (connective : α → Connective) {draft : α → Draft}
    {comparisons : α → List Comparison} (each : ∀ a, (draft a).Progresses (comparisons a))
    (as : List α) :
    (Draft.chain (as.map fun a => (connective a, draft a))).Progresses (as.flatMap comparisons) := by
  induction as with
  | nil => exact .text ""
  | cons a rest ih => exact ((text _).append (each a)).append ih

end Draft.Progresses

open Draft

theorem Comparison.draft_progresses (c : Comparison) : c.draft.Progresses [c] := by
  obtain ⟨fault, unbound⟩ := c.draft_endsIn
  cases malformed : c.isMalformed with
  | true =>
    rw [malformed, if_pos rfl] at fault unbound
    have first : progress [c] = ([], some c.malformed) := by rw [progress, malformed, if_pos rfl]
    exact (Prod.ext (unbound nofun) fault).trans first.symm
  | false =>
    rw [malformed, if_neg nofun] at fault
    have whole : progress [c] = ([c].flatMap boundValues, none) :=
      progress_of_sound (by simpa using malformed)
    rw [List.flatMap_singleton] at whole
    exact (Prod.ext (c.draft_binds fault) fault).trans whole.symm

theorem Group.draft_progresses (g : Group) : g.draft.Progresses g.comparisons := by
  unfold draft comparisons
  split
  case isTrue single =>
    rw [List.isEmpty_iff.mp single]
    exact g.first.draft_progresses
  case isFalse =>
    have written := (((Progresses.text "(").append g.first.draft_progresses).append
      (.chain Comparison.connective Comparison.draft_progresses g.rest)).append (.text ")")
    simpa only [List.nil_append, List.append_nil, List.singleton_append, List.flatMap_singleton',
      Comparison.draftRest] using written

/-- A condition is written up to the first malformed of its comparisons. -/
theorem Condition.draft_progresses (p : Condition) : p.draft.Progresses p.comparisons := by
  unfold draft comparisons
  cases p.groups with
  | nil => exact .text ""
  | cons g rest =>
    exact g.draft_progresses.append (.chain (fun _ => p.connective) Group.draft_progresses rest)

end Progress

section Binding

variable {σ : Type} [Sink σ]

/-- The parameters of values that are bound one after the other, each under the name that the
collection has for it then. -/
def Sink.named (s : σ) : List Value → List Parameter
  | [] => []
  | v :: vs => ⟨next s, v⟩ :: named (bind s v).2 vs

/-- The collection, if there is one, after these values have been bound in order. -/
def Sink.bindAll (s : Option σ) (vs : List Value) : Option σ := s.map fun s => addAll s (named s vs)

theorem Sink.bindAll_nil (s : Option σ) : bindAll s [] = s := by
  cases s <;> rfl

theorem Sink.bindAll_cons (s : Option σ) (v : Value) (vs : List Value) :
    bindAll s (v :: vs) = bindAll (v.write s).2 vs := by
  cases s <;> rfl

theorem Sink.bindAll_append (s : Option σ) (vs us : List Value) :
    bindAll s (vs ++ us) = bindAll (bindAll s vs) us := by
  induction vs generalizing s with
  | nil => rw [bindAll_nil, List.nil_append]
  | cons v vs ih => rw [List.cons_append, bindAll_cons, bindAll_cons, ih]

theorem Template.fill_snd (t : Template) (s : Option σ) :
    (t.fill s).2 = Sink.bindAll s t.values := by
  induction t generalizing s with
  | last fragment => rw [fill, values, Sink.bindAll_nil]
  | slot fragment v rest ih => rw [fill, values, Sink.bindAll_cons, ← ih]

/-- Comparisons that are not malformed compile one by one, and each leaves its values bound. -/
theorem Comparison.mapM_compile_of_sound {cs : List Comparison}
    (sound : ∀ c ∈ cs, c.isMalformed = false) (s : Option σ) :
    ∃ texts, Compile.outcome (cs.mapM compile) s =
      (.ok texts, Sink.bindAll s (cs.flatMap boundValues)) := by
  induction cs generalizing s with
  | nil => exact ⟨[], by rw [List.mapM_nil, List.flatMap_nil, Sink.bindAll_nil]; rfl⟩
  | cons c rest ih =>
    rw [List.forall_mem_cons] at sound
    have alone := c.draft_progresses
    rw [Draft.Progresses, progress_of_sound (by simpa using sound.1), List.flatMap_singleton,
      Prod.mk.injEq] at alone
    obtain ⟨texts, others⟩ := ih sound.2 (Sink.bindAll s c.boundValues)
    refine ⟨(c.draft.template.fill s).1 :: texts, ?_⟩
    rw [List.mapM_cons]
    simp only [Compile.outcome_bind, Compile.outcome_pure, c.compile_fills s, Draft.fill, alone.2,
      Template.fill_snd, alone.1, others, List.flatMap_cons, Sink.bindAll_append]

namespace Condition

variable {p : Condition}

theorem outcome_of_sound (sound : ∀ c ∈ p.comparisons, c.isMalformed = false) (s : Option σ) :
    ∃ text, Compile.outcome p.compile s =
      (.ok text, Sink.bindAll s (p.comparisons.flatMap Comparison.boundValues)) := by
  have written := p.draft_progresses
  rw [Draft.Progresses, Comparison.progress_of_sound sound, Prod.mk.injEq] at written
  exact ⟨_, by rw [p.compile_fills s, Draft.fill, written.2, Template.fill_snd, written.1]⟩

theorem outcome_of_first_malformed {before after : List Comparison} {c : Comparison}
    (split : p.comparisons = before ++ c :: after) (sound : ∀ b ∈ before, b.isMalformed = false)
    (malformed : c.isMalformed = true) (s : Option σ) :
    Compile.outcome p.compile s =
      (.error c.malformed, Sink.bindAll s (before.flatMap Comparison.boundValues)) := by
  have written := p.draft_progresses
  rw [Draft.Progresses, split, Comparison.progress_of_first_malformed sound malformed,
    Prod.mk.injEq] at written
  rw [p.compile_fills s, Draft.fill, written.2, Template.fill_snd, written.1]

/-- Compiling a condition fails if and only if a comparison in it is malformed. The error is about
the first such comparison, beside every collection and by itself. The collection is left as the
comparisons before it leave it when they are compiled one by one: with all that it held, followed by
their values in order under the names that it has next. -/
theorem compile_stops_at_first_malformed (p : Condition) (s : Option σ) :
    ((∃ e, (Compile.outcome p.compile s).1 = .error e) ↔
      ∃ c ∈ p.comparisons, c.isMalformed = true) ∧
    ∀ before c after, p.comparisons = before ++ c :: after →
      (∀ b ∈ before, b.isMalformed = false) → c.isMalformed = true →
      Compile.outcome p.compile s =
        (.error ⟨c.field, c.operator, c.operand.describe⟩,
          Sink.bindAll s (before.flatMap Comparison.boundValues)) ∧
      p.toSql = .error ⟨c.field, c.operator, c.operand.describe⟩ ∧
      (∃ texts, Compile.outcome (before.mapM Comparison.compile) s =
        (.ok texts, (Compile.outcome p.compile s).2)) ∧
      ∀ (contents : σ → List Parameter) (held left : σ),
        (∀ s p, contents (Sink.add s p) = contents s ++ [p]) → s = some held →
        (Compile.outcome p.compile s).2 = some left →
        contents left =
          contents held ++ Sink.named held (before.flatMap Comparison.boundValues) := by
  constructor
  · rcases Comparison.sound_or_first_malformed p.comparisons with
      sound | ⟨before, c, after, split, sound, malformed⟩
    · obtain ⟨text, written⟩ := outcome_of_sound sound s
      constructor
      · rintro ⟨e, failed⟩
        rw [written] at failed
        contradiction
      · rintro ⟨c, member, malformed⟩
        rw [sound c member] at malformed
        contradiction
    · constructor
      · exact fun _ => ⟨c, by simp [split], malformed⟩
      · exact fun _ => ⟨_, by rw [outcome_of_first_malformed split sound malformed s]⟩
  · intro before c after split sound malformed
    have stopped := outcome_of_first_malformed split sound malformed s
    refine ⟨stopped, ?_, ?_, ?_⟩
    · exact congrArg Prod.fst (outcome_of_first_malformed (σ := Bindings) split sound malformed none)
    · rw [stopped]
      exact Comparison.mapM_compile_of_sound sound s
    · intro contents held left grows present leaves
      rw [stopped, present] at leaves
      obtain rfl := Option.some.inj leaves
      exact Sink.contents_addAll grows held _

end Condition

end Binding

/-- A null test, a range with a raw end and a text, then a range with one end, and behind it another
comparison. -/
def Condition.halted : Condition :=
  ⟨[⟨.isNull "gone",
      [.between "age" (.bool true) (.raw "(SELECT 65)"), .scalar "name" .like (.text "O'B%")]⟩,
    ⟨.new "size" .notBetween (.sequence [.null]), [.scalar "id" .equals (.bool false)]⟩], .or⟩

theorem Condition.compile_stops_at_first_malformed_halted :
    ∃ before c after, halted.comparisons = before ++ c :: after ∧
      (∀ b ∈ before, b.isMalformed = false) ∧ c.isMalformed = true ∧
      Compile.outcome halted.compile (some Bindings.held) =
        (.error ⟨"size", .notBetween, "sequence of 1"⟩,
          some ⟨[⟨.positional, .null⟩, ⟨.numbered 1, .bool true⟩, ⟨.numbered 2, .text "O'B%"⟩]⟩) := by
  refine ⟨halted.comparisons.take 3, .new "size" .notBetween (.sequence [.null]),
    halted.comparisons.drop 4, rfl, by decide, rfl, ?_⟩
  exact ((compile_stops_at_first_malformed halted (some Bindings.held)).2 _ _ _ rfl (by decide)
    rfl).1

end TypedSql
