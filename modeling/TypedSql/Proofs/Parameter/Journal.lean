import TypedSql.Proofs.Condition.Stopping
import TypedSql.Proofs.Parameter.Names

/-! Bindings in the life of one collection of parameters, to which parameters are also added by hand,
under any name. A generated name counts the parameters, so it differs from every generated name
before it. It may still be one that was given by hand, and then the value given by hand is found
under it. -/
namespace TypedSql

/-- What is asked of a collection. -/
inductive Request where
  /-- A parameter with a name of its own. -/
  | add (p : Parameter)
  | bind (v : Value)
  | clear
  /-- Compiles a condition beside the collection, to its end or up to a fault. -/
  | compile (c : Condition)
  deriving DecidableEq, Repr

def Bindings.apply (b : Bindings) : Request → Bindings
  | .add p => b.add p
  | .bind v => (Sink.bind b v).2
  | .clear => .empty
  | .compile c => (Compile.outcome c.compile (some b)).2.getD b

/-- A value that is bound beside these parameters. `byHand` are those of them that were not bound. -/
structure Binding where
  held : Bindings
  byHand : List Parameter
  value : Value
  deriving DecidableEq, Repr

namespace Binding

/-- What the binding returns. -/
def placeholder (e : Binding) : Placeholder := (Sink.bind e.held e.value).1

/-- What it leaves. -/
def after (e : Binding) : Bindings := (Sink.bind e.held e.value).2

end Binding

/-- A collection in which every binding is entered, whoever asks for it. -/
structure Journal where
  bindings : Bindings
  byHand : List Parameter
  entries : List Binding
  deriving DecidableEq, Repr

namespace Journal

def empty : Journal := ⟨.empty, [], []⟩

instance : Sink Journal where
  count j := Sink.count j.bindings
  add j p :=
    { j with
      bindings := Sink.add j.bindings p
      entries := j.entries ++ [⟨j.bindings, j.byHand, p.value⟩] }

def apply (j : Journal) : Request → Journal
  | .add p => { j with bindings := j.bindings.add p, byHand := j.byHand ++ [p] }
  | .bind v => (Sink.bind j v).2
  | .clear => { j with bindings := .empty, byHand := [] }
  | .compile c => (Compile.outcome c.compile (some j)).2.getD j

def ofRequests (requests : List Request) : Journal := requests.foldl apply empty

end Journal

section Compiling

variable {σ : Type} [Sink σ]

/-- A compilation leaves the values of its draft bound one after the other. -/
theorem Condition.getD_outcome (p : Condition) (s : σ) :
    (Compile.outcome p.compile (some s)).2.getD s =
      Sink.addAll s (Sink.named s p.draft.template.values) := by
  rw [p.compile_fills (some s), Draft.fill, Template.fill_snd]
  rfl

/-- What every binding keeps is kept by any number of them. -/
theorem Sink.addAll_named {P : σ → Prop} (kept : ∀ s v, P s → P (bind s v).2) (vs : List Value)
    {s : σ} (h : P s) : P (addAll s (named s vs)) := by
  induction vs generalizing s with
  | nil => exact h
  | cons v vs ih => exact ih (kept s v h)

end Compiling

namespace Journal

theorem bindings_addAll_named (j : Journal) (vs : List Value) :
    (Sink.addAll j (Sink.named j vs)).bindings =
      Sink.addAll j.bindings (Sink.named j.bindings vs) := by
  induction vs generalizing j with
  | nil => rfl
  | cons v vs ih => exact ih (Sink.bind j v).2

/-- The journal does not change what becomes of the parameters. -/
theorem bindings_apply (j : Journal) (r : Request) : (j.apply r).bindings = j.bindings.apply r := by
  cases r with
  | add p | bind v | clear => rfl
  | compile c =>
    rw [apply, Bindings.apply, Condition.getD_outcome, Condition.getD_outcome,
      bindings_addAll_named]

theorem bindings_ofRequests (requests : List Request) :
    (ofRequests requests).bindings = requests.foldl Bindings.apply .empty := by
  have run : ∀ j : Journal,
      (requests.foldl apply j).bindings = requests.foldl Bindings.apply j.bindings := by
    induction requests with
    | nil => exact fun _ => rfl
    | cons r rest ih =>
      intro j
      rw [List.foldl_cons, List.foldl_cons, ih, bindings_apply]
  exact run empty

/-- The parameters that have a placeholder. -/
def under (p : Placeholder) (parameters : List Parameter) : List Parameter :=
  parameters.filter (·.placeholder = p)

theorem under_append (p : Placeholder) (before : List Parameter) (q : Parameter) :
    under p (before ++ [q]) = under p before ++ if q.placeholder = p then [q] else [] := by
  simp only [under, List.filter_append, List.filter_cons, List.filter_nil, decide_eq_true_eq]

/-- Names that are yet to be generated are in the collection only by hand, and every entry was made
at such a time. -/
structure Sound (j : Journal) : Prop where
  ahead : ∀ n, j.bindings.length ≤ n →
    under (.numbered n) j.bindings.parameters = under (.numbered n) j.byHand
  entries : ∀ e ∈ j.entries, under e.placeholder e.held.parameters = under e.placeholder e.byHand

theorem sound_empty : Sound empty where
  ahead _ _ := rfl
  entries := List.forall_mem_nil _

variable {j : Journal}

theorem Sound.bind (v : Value) (h : j.Sound) : (Sink.bind j v).2.Sound where
  ahead := by
    intro n beyond
    have counted : (Sink.bind j v).2.bindings.length = j.bindings.length + 1 :=
      Bindings.length_add _ _
    have grown : j.bindings.length < n := by omega
    -- The name just given has a smaller number.
    have other : Sink.next j ≠ .numbered n :=
      fun same => absurd (Placeholder.numbered_inj.mp same) (Nat.ne_of_lt grown)
    change under _ (j.bindings.parameters ++ [⟨Sink.next j, v⟩]) = under _ j.byHand
    rw [under_append, if_neg other, List.append_nil]
    exact h.ahead n (Nat.le_of_lt grown)
  entries := by
    intro e member
    rcases List.mem_append.mp member with earlier | new
    · exact h.entries e earlier
    · obtain rfl := List.mem_singleton.mp new
      exact h.ahead _ (Nat.le_refl _)

theorem Sound.add (p : Parameter) (h : j.Sound) : (j.apply (.add p)).Sound where
  ahead := by
    intro n beyond
    have counted : (j.apply (.add p)).bindings.length = j.bindings.length + 1 :=
      Bindings.length_add _ _
    have fewer : j.bindings.length ≤ n := by omega
    change under _ (j.bindings.parameters ++ [p]) = under _ (j.byHand ++ [p])
    rw [under_append, under_append, h.ahead n fewer]
  entries := h.entries

/-- Whatever is asked of a collection keeps its journal sound. -/
theorem Sound.apply (r : Request) (h : j.Sound) : (j.apply r).Sound := by
  cases r with
  | add p => exact h.add p
  | bind v => exact h.bind v
  | clear => exact ⟨fun _ _ => rfl, h.entries⟩
  | compile c =>
    rw [Journal.apply, Condition.getD_outcome]
    exact Sink.addAll_named (fun _ v h => Sound.bind v h) _ h

theorem sound_ofRequests (requests : List Request) : (ofRequests requests).Sound := by
  have run : ∀ j : Journal, j.Sound → (requests.foldl apply j).Sound := by
    induction requests with
    | nil => exact fun _ h => h
    | cons r rest ih => exact fun j h => ih (j.apply r) (h.apply r)
  exact run empty sound_empty

end Journal

namespace Binding

open Journal

variable {e : Binding}

theorem fresh_iff (same : under e.placeholder e.held.parameters = under e.placeholder e.byHand) :
    (∀ q ∈ e.held.parameters, q.name ≠ e.placeholder.text) ↔
      ∀ q ∈ e.byHand, q.placeholder ≠ e.placeholder := by
  have unnamed : (∀ q ∈ e.held.parameters, q.name ≠ e.placeholder.text) ↔
      under e.placeholder e.held.parameters = [] := by
    simp only [under, List.filter_eq_nil_iff, decide_eq_true_eq]
    exact forall₂_congr fun q _ => not_congr Placeholder.text_eq_numbered_iff
  rw [unnamed, same]
  simp only [under, List.filter_eq_nil_iff, decide_eq_true_eq, ne_eq]

theorem get?_after (same : under e.placeholder e.held.parameters = under e.placeholder e.byHand) :
    e.after.get? e.placeholder.text =
      some (((under e.placeholder e.byHand).head?.map (·.value)).getD e.value) := by
  have named : Parameter.name ⟨e.placeholder, e.value⟩ = e.placeholder.text := rfl
  have held : e.held.get? e.placeholder.text =
      (under e.placeholder e.held.parameters).head?.map (·.value) :=
    e.held.get?_numbered e.held.length
  change (e.held.add ⟨e.placeholder, e.value⟩).get? e.placeholder.text = _
  rw [Bindings.get?_add, if_pos named, held, same]
  cases (under e.placeholder e.byHand).head? <;> rfl

end Binding

/-- Every binding in the life of a collection, also those of compilations that fail, returns a
placeholder that no parameter has yet, unless one was added by hand that has it. Right after, the
value is found under the placeholder, or else the value of the first parameter that was added by
hand and has it. -/
theorem Journal.bind_resolves (requests : List Request) :
    (ofRequests requests).bindings = requests.foldl Bindings.apply .empty ∧
    ∀ e ∈ (ofRequests requests).entries,
      ((∀ q ∈ e.held.parameters, q.name ≠ e.placeholder.text) ↔
        ∀ q ∈ e.byHand, q.placeholder ≠ e.placeholder) ∧
      e.after.get? e.placeholder.text =
        some (((under e.placeholder e.byHand).head?.map (·.value)).getD e.value) := by
  refine ⟨bindings_ofRequests requests, fun e member => ?_⟩
  have same := (sound_ofRequests requests).entries e member
  exact ⟨e.fresh_iff same, e.get?_after same⟩

/-- NULL under a name that is given by hand. -/
def Parameter.null (name : String) : Parameter := ⟨⟨name, .atSign⟩, .null⟩

/-- The compilation binds two values and fails. -/
def Request.mixed : List Request :=
  [.add (.null "P3"), .bind (.blob []), .compile Condition.halted]

def Binding.free : Binding :=
  ⟨⟨[.null "P3", ⟨.numbered 1, .blob []⟩]⟩, [.null "P3"], .bool true⟩

def Binding.taken : Binding :=
  ⟨⟨[.null "P3", ⟨.numbered 1, .blob []⟩, ⟨.numbered 2, .bool true⟩]⟩, [.null "P3"],
    .text "O'B%"⟩

/-- The compilation generates the name `@P2`, and then the one that is there. -/
theorem Journal.bind_resolves_mixed :
    Binding.free ∈ (ofRequests Request.mixed).entries ∧
      Binding.taken ∈ (ofRequests Request.mixed).entries ∧
      (∀ q ∈ Binding.free.held.parameters, q.name ≠ "@P2") ∧
      Binding.free.after.get? "@P2" = some (.bool true) ∧
      Binding.taken.after.get? "@P3" = some .null := by
  have entries : (ofRequests Request.mixed).entries =
      [⟨⟨[.null "P3"]⟩, [.null "P3"], .blob []⟩, .free, .taken] := by rfl
  have free : Binding.free ∈ (ofRequests Request.mixed).entries := by simp [entries]
  have taken : Binding.taken ∈ (ofRequests Request.mixed).entries := by simp [entries]
  obtain ⟨fresh, found⟩ := (bind_resolves Request.mixed).2 .free free
  obtain ⟨-, other⟩ := (bind_resolves Request.mixed).2 .taken taken
  have second : Binding.free.placeholder.text = "@P2" := by rfl
  have third : Binding.taken.placeholder.text = "@P3" := by rfl
  rw [second] at fresh found
  rw [third] at other
  exact ⟨free, taken, fresh.mpr (by decide), found, other⟩

/-- The parameter that was added by hand as `@P1` takes the place of the one that is bound. -/
theorem Journal.exists_bind_not_resolved :
    ∃ e ∈ (ofRequests [.add (.null "P1"), .bind (.bool true)]).entries,
      e.value = .bool true ∧ e.placeholder.text = "@P1" ∧
      (∃ q ∈ e.held.parameters, q.name = e.placeholder.text) ∧
      e.after.get? e.placeholder.text = some .null := by
  refine ⟨⟨⟨[.null "P1"]⟩, [.null "P1"], .bool true⟩, List.mem_singleton_self _, rfl, by rfl, ?_,
    by rfl⟩
  exact ⟨.null "P1", List.mem_singleton_self _, by rfl⟩

end TypedSql
