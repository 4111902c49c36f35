import Mathlib.Data.List.Forall2
import TypedSql.Proofs.Condition.Stopping

/-! Operands that are spelled in two ways. No value is the null operand or a scalar that is null, a
raw text is an operand of its own or a raw scalar, and the two ends of a range are a pair or a
sequence; the connective of the first comparison of a group joins nothing. Conditions that differ in
no more than this compile alike. Only the errors tell the spellings apart. -/
namespace TypedSql

/-- Two spellings of one operand. -/
inductive Operand.Respelled : Operand → Operand → Prop
  | refl (o : Operand) : Respelled o o
  | null : Respelled .null (.scalar .null)
  | raw (sql : String) : Respelled (.raw sql) (.scalar (.raw sql))
  | pair (lower upper : Value) : Respelled (.pair lower upper) (.sequence [lower, upper])
  | symm {a b : Operand} (h : Respelled a b) : Respelled b a

/-- The same test, whatever joins it to the one before. -/
structure Comparison.Respelled (c d : Comparison) : Prop where
  field : c.field = d.field
  operator : c.operator = d.operator
  operand : c.operand.Respelled d.operand

structure Group.Respelled (g h : Group) : Prop where
  first : g.first.Respelled h.first
  rest : List.Forall₂ (fun c d => c.Respelled d ∧ c.connective = d.connective) g.rest h.rest

structure Condition.Respelled (p q : Condition) : Prop where
  groups : List.Forall₂ Group.Respelled p.groups q.groups
  connective : p.connective = q.connective

section Agreement

variable {σ α β : Type}

/-- One result, or an error on both sides, and the same left behind. -/
inductive Compile.SameEnd :
    Except MalformedComparison α × Option σ → Except MalformedComparison α × Option σ → Prop
  | ok (a : α) (left : Option σ) : SameEnd (.ok a, left) (.ok a, left)
  | error (e f : MalformedComparison) (left : Option σ) : SameEnd (.error e, left) (.error f, left)

/-- The two compilations end alike, wherever they start. -/
def Compile.Agrees (m m' : Compile σ α) : Prop := ∀ s, SameEnd (m.outcome s) (m'.outcome s)

namespace Compile

theorem SameEnd.refl (x : Except MalformedComparison α × Option σ) : SameEnd x x := by
  rcases x with ⟨e | a, left⟩
  · exact .error e e left
  · exact .ok a left

theorem SameEnd.symm {x y : Except MalformedComparison α × Option σ} (same : SameEnd x y) :
    SameEnd y x := by
  cases same with
  | ok a left => exact .ok a left
  | error e f left => exact .error f e left

theorem SameEnd.left_eq {x y : Except MalformedComparison α × Option σ} (same : SameEnd x y) :
    x.2 = y.2 := by
  cases same <;> rfl

theorem SameEnd.ok_iff {x y : Except MalformedComparison α × Option σ} (same : SameEnd x y) {a : α} :
    x.1 = .ok a ↔ y.1 = .ok a := by
  cases same with
  | ok => exact Iff.rfl
  | error => exact iff_of_false nofun nofun

namespace Agrees

variable {m m' : Compile σ α} {k k' : α → Compile σ β}

theorem refl (m : Compile σ α) : m.Agrees m := fun _ => .refl _

theorem symm (same : m.Agrees m') : m'.Agrees m := fun s => (same s).symm

theorem throw (e f : MalformedComparison) : Agrees (throw e : Compile σ α) (throw f) :=
  fun s => .error e f s

theorem bind (first : m.Agrees m') (next : ∀ a, (k a).Agrees (k' a)) :
    (m >>= k).Agrees (m' >>= k') := by
  intro s
  have ends := first s
  rw [outcome_bind, outcome_bind]
  generalize m.outcome s = x at ends
  generalize m'.outcome s = y at ends
  cases ends with
  | ok a middle => exact next a middle
  | error e f left => exact .error e f left

end Agrees

end Compile

end Agreement

open Compile

namespace Operand.Respelled

variable {a b : Operand}

theorem isMalformed_eq (same : a.Respelled b) (field : String) (o : Operator) (k k' : Connective) :
    Comparison.isMalformed ⟨field, o, a, k⟩ = Comparison.isMalformed ⟨field, o, b, k'⟩ := by
  induction same generalizing k k' with
  | refl | null => rfl
  | raw | pair => cases o <;> rfl
  | symm _ ih => exact (ih k' k).symm

theorem compile_agrees {σ : Type} [Sink σ] (same : a.Respelled b) (field : String) (o : Operator)
    (k k' : Connective) :
    Agrees (Comparison.compile (σ := σ) ⟨field, o, a, k⟩)
      (Comparison.compile ⟨field, o, b, k'⟩) := by
  induction same generalizing k k' with
  | refl | null => exact .refl _
  | raw sql =>
    cases o with
    | between | notBetween => exact .throw _ _
    | _ => exact .refl _
  | pair lower upper =>
    cases o with
    | between | notBetween | isIn | notIn => exact .refl _
    | _ => exact .throw _ _
  | symm _ ih => exact (ih k' k).symm

end Operand.Respelled

section Conditions

variable {σ : Type} [Sink σ]

namespace Comparison

variable {c d : Comparison} {cs ds : List Comparison}

theorem Respelled.isMalformed_eq (same : c.Respelled d) : c.isMalformed = d.isMalformed := by
  obtain ⟨field, o, a, k⟩ := c
  obtain ⟨field', o', b, k'⟩ := d
  obtain ⟨rfl, rfl, operand⟩ := same
  exact operand.isMalformed_eq field o k k'

theorem Respelled.compile_agrees (same : c.Respelled d) :
    Agrees (c.compile : Compile σ String) d.compile := by
  obtain ⟨field, o, a, k⟩ := c
  obtain ⟨field', o', b, k'⟩ := d
  obtain ⟨rfl, rfl, operand⟩ := same
  exact operand.compile_agrees field o k k'

theorem compileRest_agrees
    (all : List.Forall₂ (fun c d => c.Respelled d ∧ c.connective = d.connective) cs ds) :
    Agrees (compileRest cs : Compile σ String) (compileRest ds) := by
  induction all with
  | nil => exact .refl _
  | cons first _ ih =>
    rw [compileRest, compileRest, first.2]
    exact first.1.compile_agrees.bind fun _ => ih.bind fun _ => .refl _

theorem sound_of_respelled (all : List.Forall₂ Respelled cs ds)
    (sound : ∀ d ∈ ds, d.isMalformed = false) : ∀ c ∈ cs, c.isMalformed = false := by
  induction all with
  | nil => exact List.forall_mem_nil _
  | cons first _ ih =>
    rw [List.forall_mem_cons] at sound ⊢
    exact ⟨first.isMalformed_eq.trans sound.1, ih sound.2⟩

/-- A malformed comparison stops at once, with nothing bound. -/
theorem outcome_of_malformed (malformed : c.isMalformed = true) (s : Option σ) :
    Compile.outcome c.compile s = (.error c.malformed, s) := by
  obtain ⟨fault, unbound⟩ := c.draft_endsIn
  rw [malformed, if_pos rfl] at fault unbound
  have empty := unbound (Option.some_ne_none _)
  rw [c.compile_fills s, Draft.fill, fault, Template.fill_snd, empty, Sink.bindAll_nil]

end Comparison

theorem Group.Respelled.compile_agrees {g h : Group} (same : g.Respelled h) :
    Agrees (g.compile : Compile σ String) h.compile := by
  obtain ⟨first, rest⟩ := g
  obtain ⟨first', rest'⟩ := h
  obtain ⟨test, others⟩ := same
  have several : rest.isEmpty = rest'.isEmpty := by cases others <;> rfl
  rw [compile, compile, several]
  exact test.compile_agrees.bind fun _ =>
    (Comparison.compileRest_agrees others).bind fun _ => .refl _

namespace Condition

variable {p q : Condition}

theorem compileRest_agrees (k : Connective) {gs hs : List Group}
    (all : List.Forall₂ Group.Respelled gs hs) :
    Agrees (compileRest k gs : Compile σ String) (compileRest k hs) := by
  induction all with
  | nil => exact .refl _
  | cons first _ ih =>
    rw [compileRest, compileRest]
    exact first.compile_agrees.bind fun _ => ih.bind fun _ => .refl _

theorem Respelled.compile_agrees (same : p.Respelled q) :
    Agrees (p.compile : Compile σ String) q.compile := by
  obtain ⟨groups, k⟩ := p
  obtain ⟨groups', k'⟩ := q
  obtain ⟨all, rfl⟩ := same
  cases all with
  | nil => exact .refl _
  | cons first rest =>
    exact first.compile_agrees.bind fun _ => (compileRest_agrees k rest).bind fun _ => .refl _

/-- Comparison for comparison, the whole conditions have the same tests. -/
theorem Respelled.comparisons (same : p.Respelled q) :
    List.Forall₂ Comparison.Respelled p.comparisons q.comparisons := by
  refine List.rel_flatMap same.groups fun g h same => ?_
  exact .cons same.first (same.rest.imp fun _ _ => And.left)

/-- The compilation stops at the comparison of this index: those before it compile one after the
other, it does not, and its error is that of the whole. -/
def StopsAt (p : Condition) (s : Option σ) (i : Nat) : Prop :=
  ∃ c texts middle, p.comparisons[i]? = some c ∧
    Compile.outcome ((p.comparisons.take i).mapM Comparison.compile) s = (.ok texts, middle) ∧
    (Compile.outcome c.compile middle).1 = .error c.malformed ∧
    (Compile.outcome p.compile s).1 = .error c.malformed

theorem stopsAt_of_first_malformed {before after : List Comparison} {c : Comparison}
    (split : p.comparisons = before ++ c :: after) (sound : ∀ b ∈ before, b.isMalformed = false)
    (malformed : c.isMalformed = true) (s : Option σ) : p.StopsAt s before.length := by
  obtain ⟨texts, passed⟩ := Comparison.mapM_compile_of_sound sound s
  refine ⟨c, texts, Sink.bindAll s (before.flatMap Comparison.boundValues), ?_, ?_, ?_, ?_⟩
  · simp [split]
  · rw [split, List.take_left, passed]
  · rw [Comparison.outcome_of_malformed malformed]
  · rw [outcome_of_first_malformed split sound malformed]

/-- A first malformed comparison has its counterpart in the other spelling. -/
theorem Respelled.exists_first_malformed (same : p.Respelled q) {before after : List Comparison}
    {d : Comparison} (split : q.comparisons = before ++ d :: after)
    (sound : ∀ b ∈ before, b.isMalformed = false) (malformed : d.isMalformed = true) :
    ∃ before' c after', p.comparisons = before' ++ c :: after' ∧ before'.length = before.length ∧
      (∀ b ∈ before', b.isMalformed = false) ∧ c.isMalformed = true := by
  have all := same.comparisons
  rw [split] at all
  have front := List.forall₂_take_append _ _ _ all
  obtain ⟨c, after', test, -, back⟩ :=
    List.forall₂_cons_right_iff.mp (List.forall₂_drop_append _ _ _ all)
  refine ⟨p.comparisons.take before.length, c, after', ?_, front.length_eq, ?_, ?_⟩
  · rw [← back, List.take_append_drop]
  · exact Comparison.sound_of_respelled front sound
  · rw [test.isMalformed_eq, malformed]

/-- Spellings can be interchanged. Two conditions that differ in how some operands are spelled, or in
the connective of the first comparison of some groups, leave the same behind, from every collection
and from none. They have one text, or neither has one, and then both stop at one place. -/
theorem compile_respelled (same : p.Respelled q) (s : Option σ) :
    (Compile.outcome q.compile s).2 = (Compile.outcome p.compile s).2 ∧
      ((∃ text, (Compile.outcome p.compile s).1 = .ok text ∧
          (Compile.outcome q.compile s).1 = .ok text) ∨
        ∃ i, p.StopsAt s i ∧ q.StopsAt s i) := by
  have ends := same.compile_agrees s
  refine ⟨ends.left_eq.symm, ?_⟩
  rcases Comparison.sound_or_first_malformed q.comparisons with
    sound | ⟨before, d, after, split, sound, malformed⟩
  · obtain ⟨text, written⟩ := outcome_of_sound sound s
    have compiled : (Compile.outcome q.compile s).1 = .ok text := by rw [written]
    exact Or.inl ⟨text, ends.ok_iff.mpr compiled, compiled⟩
  · obtain ⟨before', c, after', split', length, sound', malformed'⟩ :=
      same.exists_first_malformed split sound malformed
    have stops : p.StopsAt s before.length :=
      length ▸ stopsAt_of_first_malformed split' sound' malformed' s
    exact Or.inr ⟨_, stops, stopsAt_of_first_malformed split sound malformed s⟩

end Condition

end Conditions

/-- A null test, a raw value, a list and a range of two days. -/
def Condition.order (closed total days : Operand) (k : Connective) : Condition :=
  ⟨[⟨(Comparison.new "closed" .notEqualTo closed).withConnective k,
      [.new "total" .greaterThan total, (Comparison.new "day" .notIn days).withConnective .or]⟩,
    .new (.new "due" .between days)], .and⟩

theorem Condition.compile_respelled_order :
    ∃ p q : Condition, p ≠ q ∧ p.Respelled q ∧
      Compile.outcome q.compile (some Bindings.held) =
        (.ok ("(NOT closed IS NULL AND total > (SELECT 1) OR NOT day IN (1,'x')) AND " ++
            "due BETWEEN @P1 AND @P2"),
          some ⟨[⟨.positional, .null⟩, ⟨.numbered 1, .bool true⟩, ⟨.numbered 2, .text "x"⟩]⟩) := by
  let p := order .null (.raw "(SELECT 1)") (.pair (.bool true) (.text "x")) .and
  let q := order (.scalar .null) (.scalar (.raw "(SELECT 1)"))
    (.sequence [.bool true, .text "x"]) .or
  have same : p.Respelled q :=
    ⟨.cons ⟨⟨rfl, rfl, .null⟩,
        .cons ⟨⟨rfl, rfl, .raw _⟩, rfl⟩ (.cons ⟨⟨rfl, rfl, .pair _ _⟩, rfl⟩ .nil)⟩
      (.cons ⟨⟨rfl, rfl, .pair _ _⟩, .nil⟩ .nil), rfl⟩
  have compiled : Compile.outcome p.compile (some Bindings.held) =
      (.ok ("(NOT closed IS NULL AND total > (SELECT 1) OR NOT day IN (1,'x')) AND " ++
          "due BETWEEN @P1 AND @P2"),
        some ⟨[⟨.positional, .null⟩, ⟨.numbered 1, .bool true⟩, ⟨.numbered 2, .text "x"⟩]⟩) := by rfl
  obtain ⟨left, ⟨text, first, second⟩ | ⟨_, ⟨_, _, _, _, _, _, failed⟩, _⟩⟩ :=
    compile_respelled same (some Bindings.held)
  · rw [compiled] at left first
    cases first
    exact ⟨p, q, by decide, same, Prod.ext second left⟩
  · rw [compiled] at failed
    contradiction

end TypedSql
