/-! Lists cut where a run of elements ends, and lists joined with a separator between them. -/
namespace TypedSql.Text

section Runs

variable {α : Type} {p : α → Bool} {run rest : List α}

/-- A run in front of something that does not continue it. -/
theorem takeWhile_append_eq (inside : ∀ a ∈ run, p a = true) (stop : ∀ a ∈ rest.head?, p a = false) :
    (run ++ rest).takeWhile p = run := by
  rw [List.takeWhile_append_of_pos inside]
  cases rest with
  | nil => simp
  | cons a rest => simp [stop a rfl]

theorem dropWhile_append_eq (inside : ∀ a ∈ run, p a = true) (stop : ∀ a ∈ rest.head?, p a = false) :
    (run ++ rest).dropWhile p = rest := by
  rw [List.dropWhile_append_of_pos inside]
  cases rest with
  | nil => simp
  | cons a rest => simp [stop a rfl]

/-- What cannot go on with the run does not change where it ends. -/
theorem takeWhile_append_of_stop (as : List α) (stop : ∀ a ∈ rest.head?, p a = false) :
    (as ++ rest).takeWhile p = as.takeWhile p := by
  induction as with
  | nil => exact takeWhile_append_eq (List.forall_mem_nil _) stop
  | cons a as ih => rw [List.cons_append, List.takeWhile_cons, List.takeWhile_cons, ih]

theorem dropWhile_append_of_stop (as : List α) (stop : ∀ a ∈ rest.head?, p a = false) :
    (as ++ rest).dropWhile p = as.dropWhile p ++ rest := by
  induction as with
  | nil => exact dropWhile_append_eq (List.forall_mem_nil _) stop
  | cons a as ih =>
    rw [List.cons_append, List.dropWhile_cons, List.dropWhile_cons, ih]
    split <;> rfl

end Runs

section Joined

variable {α : Type} {separator : List α}

theorem intercalate_cons (separator first : List α) (rest : List (List α)) :
    separator.intercalate (first :: rest) = first ++ rest.flatMap (separator ++ ·) := by
  induction rest generalizing first with
  | nil => simp
  | cons second rest ih =>
    rw [List.intercalate_cons_cons, ih, List.flatMap_cons, List.append_assoc, List.append_assoc]

/-- Joined lists are at least as long as there are separators. -/
theorem length_le_length_intercalate (separator : α) (lists : List (List α)) :
    lists.length ≤ ([separator].intercalate lists).length + 1 := by
  cases lists with
  | nil => exact Nat.zero_le _
  | cons first rest =>
    induction rest generalizing first with
    | nil => simp
    | cons second rest ih =>
      have more := ih second
      simp only [List.intercalate_cons_cons, List.length_append, List.length_cons] at more ⊢
      omega

end Joined

end TypedSql.Text
