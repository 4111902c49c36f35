import TypedSql.Parameter

/-! The names of placeholders and the values that are found under them. Generated names differ from
each other, and no name of another kind is one of them. -/
namespace TypedSql

open Numeric

namespace Placeholder

variable {m n : Nat}

theorem numbered_inj : numbered m = numbered n ↔ m = n := by
  constructor
  · intro same
    have names := congrArg (fun p : Placeholder => p.name.toList) same
    simp only [numbered, String.toList_append, String.toList_ofList, List.append_cancel_left_eq]
      at names
    rw [← digitsValue_digits m, names, digitsValue_digits]
  · exact congrArg numbered

/-- A placeholder that reads as a generated one is that one. -/
theorem text_eq_numbered_iff {p : Placeholder} : p.text = (numbered n).text ↔ p = numbered n := by
  constructor
  · intro same
    obtain ⟨name, sigil⟩ := p
    have chars := congrArg String.toList same
    cases sigil with
    | atSign =>
      have names : name.toList = ("P" ++ String.ofList (digits n)).toList := by
        simpa [text, numbered] using chars
      rw [String.toList_inj.mp names, numbered]
    | colon | dollar | positional => simp [text, numbered] at chars
  · exact congrArg text

end Placeholder

namespace Bindings

variable (b : Bindings)

theorem get?_add (p : Parameter) (name : String) :
    (b.add p).get? name = (b.get? name).or (if p.name = name then some p.value else none) := by
  rw [get?, get?, parameters_add, List.find?_append]
  cases b.parameters.find? (·.name == name) with
  | some q => rfl
  | none => by_cases same : p.name = name <;> simp [same]

/-- A generated name is found where a parameter has the generated placeholder, the first of them. -/
theorem get?_numbered (n : Nat) :
    b.get? (Placeholder.numbered n).text =
      ((b.parameters.filter (·.placeholder = .numbered n)).head?).map (·.value) := by
  have named : (fun q : Parameter => q.name == (Placeholder.numbered n).text) =
      fun q => decide (q.placeholder = .numbered n) := by
    funext q
    rw [Bool.eq_iff_iff, beq_iff_eq, decide_eq_true_eq, Parameter.name,
      Placeholder.text_eq_numbered_iff]
  rw [get?, named, List.head?_filter]

end Bindings

end TypedSql
