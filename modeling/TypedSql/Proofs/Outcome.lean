import Mathlib.Data.List.Forall2

/-! Computations that can fail: what it takes for two of them in a row, and for a pass over a list,
to succeed or to end in a given error. -/
namespace TypedSql

section Binds

variable {ε α β : Type} {m : Except ε α} {k : α → Except ε β}

theorem bind_eq_ok_iff {b : β} : (m >>= k) = .ok b ↔ ∃ a, m = .ok a ∧ k a = .ok b := by
  cases m with
  | error e => exact ⟨nofun, fun ⟨_, h, _⟩ => nomatch h⟩
  | ok a =>
    constructor
    · intro h
      exact ⟨a, rfl, h⟩
    · rintro ⟨_, same, h⟩
      cases same
      exact h

theorem bind_eq_error_iff {e : ε} :
    (m >>= k) = .error e ↔ m = .error e ∨ ∃ a, m = .ok a ∧ k a = .error e := by
  cases m with
  | error f =>
    constructor
    · intro h
      cases h
      exact Or.inl rfl
    · rintro (h | ⟨_, h, _⟩)
      · cases h
        rfl
      · cases h
  | ok a =>
    constructor
    · exact fun h => Or.inr ⟨a, rfl, h⟩
    · rintro (h | ⟨_, same, h⟩)
      · cases h
      · cases same
        exact h

theorem check_bind_eq_ok_iff {m : Except ε Unit} {k : Unit → Except ε β} {b : β} :
    (m >>= k) = .ok b ↔ m = .ok () ∧ k () = .ok b :=
  bind_eq_ok_iff.trans ⟨fun ⟨_, h⟩ => h, fun h => ⟨(), h⟩⟩

theorem bind_pure_eq_error_iff {f : α → β} {e : ε} :
    (m >>= fun a => pure (f a)) = .error e ↔ m = .error e := by
  cases m <;> simp [bind, Except.bind, pure, Except.pure]

end Binds

section Maps

variable {ε ε' α β : Type} {m : Except ε α}

theorem map_eq_ok_iff {f : α → β} {b : β} : m.map f = .ok b ↔ ∃ a, m = .ok a ∧ f a = b := by
  cases m <;> simp [Except.map]

theorem map_eq_error_iff {f : α → β} {e : ε} : m.map f = .error e ↔ m = .error e := by
  cases m <;> simp [Except.map]

theorem mapError_eq_ok_iff {f : ε → ε'} {a : α} : m.mapError f = .ok a ↔ m = .ok a := by
  cases m <;> simp [Except.mapError]

theorem mapError_eq_error_iff {f : ε → ε'} {e : ε'} :
    m.mapError f = .error e ↔ ∃ cause, m = .error cause ∧ e = f cause := by
  cases m <;> simp [Except.mapError, eq_comm]

end Maps

section Passes

variable {ε α β : Type} {xs : List α} {ys : List β}

/-- A pass succeeds if and only if each of its steps does. -/
theorem mapM_eq_ok_iff {f : α → Except ε β} :
    xs.mapM f = .ok ys ↔ List.Forall₂ (fun x y => f x = .ok y) xs ys := by
  induction xs generalizing ys with
  | nil =>
    rw [List.mapM_nil, List.forall₂_nil_left_iff]
    exact ⟨fun h => (Except.ok.inj h).symm, fun h => congrArg Except.ok h.symm⟩
  | cons x rest ih =>
    rw [List.mapM_cons]
    constructor
    · intro h
      obtain ⟨y, first, h⟩ := bind_eq_ok_iff.mp h
      obtain ⟨others, passed, h⟩ := bind_eq_ok_iff.mp h
      cases h
      exact .cons first (ih.mp passed)
    · intro h
      cases h with
      | cons first others =>
        exact bind_eq_ok_iff.mpr ⟨_, first, bind_eq_ok_iff.mpr ⟨_, ih.mpr others, rfl⟩⟩

/-- The error of a pass is that of the first step that fails. -/
theorem mapM_eq_error_iff {f : α → Except ε β} {e : ε} :
    xs.mapM f = .error e ↔
      ∃ before x after, xs = before ++ x :: after ∧ (∀ b ∈ before, ∃ y, f b = .ok y) ∧
        f x = .error e := by
  induction xs with
  | nil =>
    constructor
    · exact nofun
    · rintro ⟨before, x, after, split, -⟩
      exact absurd split.symm (List.append_ne_nil_of_right_ne_nil _ (List.cons_ne_nil _ _))
  | cons x rest ih =>
    rw [List.mapM_cons]
    constructor
    · intro h
      rcases bind_eq_error_iff.mp h with failed | ⟨y, first, h⟩
      · exact ⟨[], x, rest, rfl, List.forall_mem_nil _, failed⟩
      · rcases bind_eq_error_iff.mp h with h | ⟨_, -, h⟩
        · obtain ⟨before, z, after, rfl, passed, failed⟩ := ih.mp h
          exact ⟨x :: before, z, after, rfl, List.forall_mem_cons.mpr ⟨⟨y, first⟩, passed⟩, failed⟩
        · cases h
    · rintro ⟨before, z, after, split, passed, failed⟩
      cases before with
      | nil =>
        cases split
        exact bind_eq_error_iff.mpr (Or.inl failed)
      | cons b before =>
        cases split
        obtain ⟨⟨y, first⟩, passed⟩ := List.forall_mem_cons.mp passed
        have later := ih.mpr ⟨before, z, after, rfl, passed, failed⟩
        exact bind_eq_error_iff.mpr (Or.inr ⟨y, first, bind_eq_error_iff.mpr (Or.inl later)⟩)

theorem mapM_map_eq_error_iff {γ : Type} {f : α → Except ε γ} {g : γ → β} {e : ε} :
    xs.mapM (fun x => (f x).map g) = .error e ↔ xs.mapM f = .error e := by
  have succeeds : ∀ x, (∃ y, (f x).map g = .ok y) ↔ ∃ z, f x = .ok z := by
    intro x
    cases f x <;> simp [Except.map]
  simp only [mapM_eq_error_iff, succeeds, map_eq_error_iff]

/-- Passes over parts, one after the other, end in an error as a pass over all of them does. -/
theorem mapM_flatMap_eq_error_iff {γ : Type} {f : γ → List α} {g : α → Except ε β} {zs : List γ}
    {e : ε} : (zs.flatMap f).mapM g = .error e ↔ zs.mapM (fun z => (f z).mapM g) = .error e := by
  induction zs with
  | nil => exact ⟨nofun, nofun⟩
  | cons z rest ih =>
    rw [List.flatMap_cons, List.mapM_append, List.mapM_cons, bind_eq_error_iff, bind_eq_error_iff]
    simp only [bind_pure_eq_error_iff, ih]

theorem mapM_eq_some_iff {f : α → Option β} :
    xs.mapM f = some ys ↔ List.Forall₂ (fun x y => f x = some y) xs ys := by
  induction xs generalizing ys with
  | nil =>
    rw [List.mapM_nil, List.forall₂_nil_left_iff]
    exact ⟨fun h => (Option.some.inj h).symm, fun h => congrArg some h.symm⟩
  | cons x rest ih =>
    rw [List.mapM_cons]
    constructor
    · intro h
      obtain ⟨y, first, h⟩ := Option.bind_eq_some_iff.mp h
      obtain ⟨others, passed, h⟩ := Option.bind_eq_some_iff.mp h
      cases h
      exact .cons first (ih.mp passed)
    · intro h
      cases h with
      | cons first others =>
        exact Option.bind_eq_some_iff.mpr
          ⟨_, first, Option.bind_eq_some_iff.mpr ⟨_, ih.mpr others, rfl⟩⟩

theorem exists_forall₂_iff {R : α → β → Prop} :
    (∃ ys, List.Forall₂ R xs ys) ↔ ∀ x ∈ xs, ∃ y, R x y := by
  induction xs with
  | nil => simp
  | cons x rest ih =>
    rw [List.forall_mem_cons, ← ih]
    constructor
    · rintro ⟨_, _ | ⟨first, others⟩⟩
      exact ⟨⟨_, first⟩, _, others⟩
    · rintro ⟨⟨y, first⟩, ys, others⟩
      exact ⟨y :: ys, .cons first others⟩

theorem forall₂_and_iff {R S : α → β → Prop} :
    List.Forall₂ (fun x y => R x y ∧ S x y) xs ys ↔
      List.Forall₂ R xs ys ∧ List.Forall₂ S xs ys := by
  constructor
  · intro h
    exact ⟨h.imp fun _ _ => And.left, h.imp fun _ _ => And.right⟩
  · rintro ⟨left, right⟩
    induction left with
    | nil => exact .nil
    | cons first _ ih =>
      cases right with
      | cons second others => exact .cons ⟨first, second⟩ (ih others)

end Passes

end TypedSql
