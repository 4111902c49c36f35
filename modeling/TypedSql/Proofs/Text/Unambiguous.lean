import TypedSql.Proofs.Text.Pieces

/-! Texts that can be told apart by what they are made of. A writer is unambiguous when equal texts,
each with more text behind it, come from things of equal form and leave equal texts behind. What
may stand behind is given by the openings that it can have, since an optional clause that is left
out is noticed only by what comes in its place. -/
namespace TypedSql.Text

/-- The text opens with one of the heads. -/
def Opens (heads : List (List Char)) (cs : List Char) : Prop := ∃ head ∈ heads, head <+: cs

/-- Neither the word nor any of the heads is the beginning of the other. -/
def Apart (word : List Char) (heads : List (List Char)) : Prop :=
  ∀ head ∈ heads, ¬ word <+: head ∧ ¬ head <+: word

instance (word : List Char) (heads : List (List Char)) : Decidable (Apart word heads) :=
  inferInstanceAs (Decidable (∀ _ ∈ heads, _))

/-- Equal texts with allowed text behind them come from equal forms and leave equal texts. -/
def Unambiguous {α β : Type} (heads : List (List Char)) (ok : α → Prop) (form : α → β)
    (write : α → List Char) : Prop :=
  ∀ ⦃a b x y⦄, ok a → ok b → Opens heads x → Opens heads y →
    write a ++ x = write b ++ y → form a = form b ∧ x = y

variable {α β γ δ : Type} {heads : List (List Char)} {word cs : List Char} {ok : α → Prop}
  {form : α → β} {write : α → List Char}

theorem opens_any (cs : List Char) : Opens [[]] cs := ⟨[], List.mem_singleton.mpr rfl, cs.nil_prefix⟩

theorem Opens.of_mem (h : word ∈ heads) : Opens heads (word ++ cs) :=
  ⟨word, h, List.prefix_append word cs⟩

theorem Opens.mono {wider : List (List Char)} (h : Opens heads cs) (le : heads ⊆ wider) :
    Opens wider cs := by
  obtain ⟨head, member, starts⟩ := h
  exact ⟨head, le member, starts⟩

theorem Opens.append (h : Opens heads cs) (rest : List Char) : Opens heads (cs ++ rest) := by
  obtain ⟨head, member, starts⟩ := h
  exact ⟨head, member, starts.trans (List.prefix_append cs rest)⟩

/-- Two beginnings of one text are comparable, so what opens apart from a word does not begin with
it. -/
theorem Apart.not_prefix (apart : Apart word heads) (h : Opens heads cs) : ¬ word <+: cs := by
  obtain ⟨head, member, starts⟩ := h
  obtain ⟨longer, shorter⟩ := apart head member
  intro starts'
  rcases Nat.le_total word.length head.length with le | le
  · exact longer (List.prefix_of_prefix_length_le starts' starts le)
  · exact shorter (List.prefix_of_prefix_length_le starts starts' le)

namespace Unambiguous

theorem fixed (word : List Char) : Unambiguous heads ok (fun _ => ()) (fun _ => word) := by
  intro a b x y _ _ _ _ eq
  exact ⟨rfl, List.append_cancel_left eq⟩

theorem map (u : Unambiguous heads ok form write) (f : β → γ) :
    Unambiguous heads ok (fun a => f (form a)) write := by
  intro a b x y oka okb openx openy eq
  obtain ⟨same, rest⟩ := u oka okb openx openy eq
  exact ⟨congrArg f same, rest⟩

theorem comap (u : Unambiguous heads ok form write) (f : γ → α) {ok' : γ → Prop}
    (h : ∀ c, ok' c → ok (f c)) :
    Unambiguous heads ok' (fun c => form (f c)) (fun c => write (f c)) :=
  fun _ _ _ _ oka okb openx openy eq => u (h _ oka) (h _ okb) openx openy eq

theorem mono {wider : List (List Char)} (u : Unambiguous wider ok form write)
    (le : ∀ cs, Opens heads cs → Opens wider cs) : Unambiguous heads ok form write :=
  fun _ _ _ _ oka okb openx openy eq => u oka okb (le _ openx) (le _ openy) eq

/-- A writer that does not care what comes behind it is unambiguous before anything. -/
theorem before (u : Unambiguous [[]] ok form write) : Unambiguous heads ok form write :=
  u.mono fun cs _ => opens_any cs

/-- Two writers in a row, when the second one opens the way the first one needs. -/
theorem append {second : List (List Char)} {form' : α → γ} {write' : α → List Char}
    (u : Unambiguous heads ok form write) (v : Unambiguous second ok form' write')
    (follows : ∀ a x, ok a → Opens second x → Opens heads (write' a ++ x)) :
    Unambiguous second ok (fun a => (form a, form' a)) (fun a => write a ++ write' a) := by
  intro a b x y oka okb openx openy eq
  rw [List.append_assoc, List.append_assoc] at eq
  obtain ⟨same, rest⟩ := u oka okb (follows a x oka openx) (follows b y okb openy) eq
  obtain ⟨same', rest'⟩ := v oka okb openx openy rest
  exact ⟨Prod.ext same same', rest'⟩

/-- A writer that needs nothing behind it, and another one. -/
theorem andThen {form' : α → γ} {write' : α → List Char} (u : Unambiguous [[]] ok form write)
    (v : Unambiguous heads ok form' write') :
    Unambiguous heads ok (fun a => (form a, form' a)) (fun a => write a ++ write' a) :=
  u.append v fun _ _ _ _ => opens_any _

theorem afterWord (word : List Char) (u : Unambiguous heads ok form write) :
    Unambiguous heads ok form (fun a => word ++ write a) := by
  intro a b x y oka okb openx openy eq
  rw [List.append_assoc, List.append_assoc] at eq
  exact u oka okb openx openy (List.append_cancel_left eq)

theorem beforeWord (word : List Char) (u : Unambiguous heads ok form write)
    (opens : Opens heads word) : Unambiguous [[]] ok form (fun a => write a ++ word) := by
  intro a b x y oka okb _ _ eq
  rw [List.append_assoc, List.append_assoc] at eq
  obtain ⟨same, rest⟩ := u oka okb (opens.append x) (opens.append y) eq
  exact ⟨same, List.append_cancel_left rest⟩

/-- A flag is told by whether its text is there. -/
theorem flag (apart : Apart word heads) (b : α → Bool) :
    Unambiguous heads ok b (fun a => if b a then word else []) := by
  intro a a' x y _ _ openx openy eq
  cases h : b a <;> cases h' : b a' <;> simp only [h, h', Bool.false_eq_true, if_true, if_false,
    List.nil_append] at eq
  · exact ⟨rfl, eq⟩
  · exact absurd ⟨y, eq.symm⟩ (apart.not_prefix openx)
  · exact absurd ⟨x, eq⟩ (apart.not_prefix openy)
  · exact ⟨rfl, List.append_cancel_left eq⟩

/-- An optional clause is told by its first word. -/
theorem optional {ok' : γ → Prop} {form' : γ → δ} {write' : γ → List Char}
    (apart : Apart word heads) (u : Unambiguous heads ok' form' write') (o : α → Option γ)
    (h : ∀ a c, ok a → o a = some c → ok' c) :
    Unambiguous heads ok (fun a => (o a).map form')
      (fun a => (o a).elim [] (word ++ write' ·)) := by
  intro a b x y oka okb openx openy eq
  cases oa : o a with
  | none =>
    cases ob : o b with
    | none =>
      simp only [oa, ob, Option.elim_none, List.nil_append, Option.map_none, true_and] at eq ⊢
      exact eq
    | some d =>
      simp only [oa, ob, Option.elim_none, Option.elim_some, List.nil_append,
        List.append_assoc] at eq
      exact absurd ⟨_, eq.symm⟩ (apart.not_prefix openx)
  | some c =>
    cases ob : o b with
    | none =>
      simp only [oa, ob, Option.elim_none, Option.elim_some, List.nil_append,
        List.append_assoc] at eq
      exact absurd ⟨_, eq⟩ (apart.not_prefix openy)
    | some d =>
      simp only [oa, ob, Option.elim_some, List.append_assoc, Option.map_some,
        Option.some.injEq] at eq ⊢
      exact u (h a c oka oa) (h b d okb ob) openx openy (List.append_cancel_left eq)

/-- A run of characters ends where the first other character stands. -/
theorem run (p : Char → Bool) (stops : ∀ head ∈ heads, head.head?.any (!p ·) = true) :
    Unambiguous heads (fun cs : List Char => ∀ c ∈ cs, p c = true) (fun cs => cs) (fun cs => cs) := by
  have stop : ∀ x, Opens heads x → ∀ c ∈ x.head?, p c = false := by
    rintro x ⟨head, member, rest, rfl⟩ c first
    cases head with
    | nil => cases stops [] member
    | cons d head =>
      obtain rfl : d = c := Option.some.inj first
      simpa using stops (d :: head) member
  intro a b x y oka okb openx openy eq
  have same : a = b := by
    rw [← takeWhile_append_eq oka (stop x openx), eq, takeWhile_append_eq okb (stop y openy)]
  subst same
  exact ⟨rfl, List.append_cancel_left eq⟩

/-- Text between two equal delimiters that does not hold one. -/
theorem delimited (edge : Char) :
    Unambiguous [[]] (fun cs : List Char => edge ∉ cs) (fun cs => cs)
      (fun cs => edge :: (cs ++ [edge])) := by
  have stops : ∀ head ∈ [[edge]], head.head?.any (!(· != edge) ·) = true := by simp
  have inside : ∀ cs : List Char, edge ∉ cs → ∀ c ∈ cs, (c != edge) = true :=
    fun cs absent c member => bne_iff_ne.mpr fun same => absent (same ▸ member)
  have ends : Opens [[edge]] [edge] := ⟨[edge], List.mem_cons_self, List.prefix_rfl⟩
  exact (((run (· != edge) stops).comap id inside).beforeWord [edge] ends).afterWord [edge]

section Separated

variable {sep stop : List Char} (apart : Apart sep [stop])
  (u : Unambiguous [sep, stop] ok form write)
include apart u

/-- Texts with a separator in front of each end where no separator follows. -/
theorem prefixed : Unambiguous [stop] (fun as : List α => ∀ a ∈ as, ok a) (List.map form)
    (fun as => (as.map write).flatMap (sep ++ ·)) := by
  have ends : ∀ {as : List α} {x}, Opens [stop] x →
      Opens [sep, stop] ((as.map write).flatMap (sep ++ ·) ++ x) := by
    intro as x openx
    cases as with
    | nil => exact openx.mono (List.subset_cons_self sep [stop])
    | cons a as =>
      simp only [List.map_cons, List.flatMap_cons, List.append_assoc]
      exact Opens.of_mem List.mem_cons_self
  intro as
  induction as with
  | nil =>
    intro bs x y _ okb openx openy eq
    cases bs with
    | nil => exact ⟨rfl, eq⟩
    | cons b bs =>
      simp only [List.map_nil, List.flatMap_nil, List.nil_append, List.map_cons,
        List.flatMap_cons, List.append_assoc] at eq
      exact absurd ⟨_, eq.symm⟩ (apart.not_prefix openx)
  | cons a as ih =>
    intro bs x y oka okb openx openy eq
    cases bs with
    | nil =>
      simp only [List.map_nil, List.flatMap_nil, List.nil_append, List.map_cons,
        List.flatMap_cons, List.append_assoc] at eq
      exact absurd ⟨_, eq⟩ (apart.not_prefix openy)
    | cons b bs =>
      simp only [List.map_cons, List.flatMap_cons, List.append_assoc] at eq
      obtain ⟨first, rest⟩ := u (oka a List.mem_cons_self) (okb b List.mem_cons_self)
        (ends openx) (ends openy) (List.append_cancel_left eq)
      obtain ⟨more, tail⟩ := ih (fun c member => oka c (List.mem_cons_of_mem a member))
        (fun c member => okb c (List.mem_cons_of_mem b member)) openx openy rest
      exact ⟨by rw [List.map_cons, List.map_cons, first, more], tail⟩

/-- Texts with separators between them, when none of them looks like the end. -/
theorem separated (starts : ∀ a x, ok a → ¬ stop <+: write a ++ x) :
    Unambiguous [stop] (fun as : List α => ∀ a ∈ as, ok a) (List.map form)
      (fun as => sep.intercalate (as.map write)) := by
  have stops : ∀ {x}, Opens [stop] x → stop <+: x := by
    rintro x ⟨head, member, openx⟩
    exact List.mem_singleton.mp member ▸ openx
  intro as bs x y oka okb openx openy eq
  cases as with
  | nil =>
    cases bs with
    | nil => exact ⟨rfl, eq⟩
    | cons b bs =>
      simp only [List.map_nil, List.intercalate_nil, List.nil_append, List.map_cons,
        intercalate_cons, List.append_assoc] at eq
      exact absurd (eq ▸ stops openx) (starts b _ (okb b List.mem_cons_self))
  | cons a as =>
    cases bs with
    | nil =>
      simp only [List.map_nil, List.intercalate_nil, List.nil_append, List.map_cons,
        intercalate_cons, List.append_assoc] at eq
      exact absurd (eq ▸ stops openy) (starts a _ (oka a List.mem_cons_self))
    | cons b bs =>
      -- a separator in front of the first text too makes these lists ones of the kind above
      refine prefixed apart u oka okb openx openy ?_
      simp only [List.map_cons, intercalate_cons] at eq
      simp only [List.map_cons, List.flatMap_cons, List.append_assoc] at eq ⊢
      rw [eq]

end Separated

end Unambiguous

/-- Optional clauses in a row: the text of all of them, which opens with one of the heads if any is
there, and with one of the stops otherwise. -/
structure Clauses {α β : Type} (stops heads : List (List Char)) (ok : α → Prop) (form : α → β)
    (write : α → List Char) : Prop where
  unambiguous : Unambiguous stops ok form write
  opens : ∀ a x, ok a → Opens stops x → Opens heads (write a ++ x)

namespace Clauses

variable {stops : List (List Char)}

theorem nil : Clauses stops stops ok (fun _ => ()) (fun _ => []) :=
  ⟨.fixed [], fun _ _ _ openx => openx⟩

/-- A flag in front of other clauses. -/
theorem flag (apart : Apart word heads) (rest : Clauses stops heads ok form write) (b : α → Bool) :
    Clauses stops (word :: heads) ok (fun a => (b a, form a))
      (fun a => (if b a then word else []) ++ write a) where
  unambiguous := (Unambiguous.flag apart b).append rest.unambiguous rest.opens
  opens a x oka openx := by
    split
    · exact (Opens.of_mem List.mem_cons_self).append x
    · exact (rest.opens a x oka openx).mono (List.subset_cons_self word heads)

/-- An optional clause in front of others. -/
theorem optional {ok' : γ → Prop} {form' : γ → δ} {write' : γ → List Char}
    (apart : Apart word heads) (u : Unambiguous heads ok' form' write')
    (rest : Clauses stops heads ok form write) (o : α → Option γ)
    (h : ∀ a c, ok a → o a = some c → ok' c) :
    Clauses stops (word :: heads) ok (fun a => ((o a).map form', form a))
      (fun a => (o a).elim [] (word ++ write' ·) ++ write a) where
  unambiguous := (Unambiguous.optional apart u o h).append rest.unambiguous rest.opens
  opens a x oka openx := by
    cases oa : o a with
    | none => exact (rest.opens a x oka openx).mono (List.subset_cons_self word heads)
    | some c =>
      rw [Option.elim_some, List.append_assoc, List.append_assoc]
      exact Opens.of_mem List.mem_cons_self

end Clauses

end TypedSql.Text
