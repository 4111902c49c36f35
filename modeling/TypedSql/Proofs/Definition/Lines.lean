import Mathlib.Data.List.Forall2
import TypedSql.Proofs.Definition.Determined

/-! The lines of a statement that creates a table: first one for each column, in the order of the
columns, and behind them the constraints, none of which defines a column. -/
namespace TypedSql

open Text

namespace ColumnDefinition

/-- What a definition has of its column, as far as keys go. -/
theorem key_of_ofColumn {c : Column} {isKey : Bool} {d : ColumnDefinition}
    (h : ofColumn c isKey = .ok d) : d.name = c.name ∧ d.primaryKey = isKey ∧
      (d.autoincrement = true → c.autoincrement = true ∧ d.affinity = .integer) := by
  obtain ⟨a, -, h⟩ := bind_eq_ok_iff.mp h
  obtain ⟨clause, -, h⟩ := bind_eq_ok_iff.mp h
  cases h
  refine ⟨rfl, rfl, fun numbered => ?_⟩
  rw [Bool.and_eq_true, Affinity.allowsAutoincrement, beq_iff_eq] at numbered
  exact numbered

end ColumnDefinition

namespace CreateTable

section Columns

variable {single : Bool} {cs : List Column} {ds : List Definition}

/-- A line defines a column, as the key if the column is flagged and the key is a single one. -/
def Defines (single : Bool) (c : Column) (line : Definition) : Prop :=
  ∃ d, ColumnDefinition.ofColumn c (single && c.primaryKey) = .ok d ∧ line = .column d

theorem defines_columnDefinitions (h : columnDefinitions single cs = .ok ds) :
    List.Forall₂ (Defines single) cs ds := by
  induction cs generalizing ds with
  | nil =>
    cases h
    exact .nil
  | cons c cs ih =>
    obtain ⟨d, first, h⟩ := bind_eq_ok_iff.mp h
    obtain ⟨ds, rest, h⟩ := bind_eq_ok_iff.mp h
    cases h
    exact .cons ⟨d, first, rfl⟩ (ih rest)

theorem exists_line_of_mem (lines : List.Forall₂ (Defines single) cs ds) {c : Column}
    (member : c ∈ cs) : ∃ d, .column d ∈ ds ∧ ColumnDefinition.ofColumn c (single && c.primaryKey) = .ok d := by
  induction lines with
  | nil => cases member
  | cons first _ ih =>
    rcases List.mem_cons.mp member with rfl | member
    · obtain ⟨d, made, rfl⟩ := first
      exact ⟨d, List.mem_cons_self, made⟩
    · obtain ⟨d, included, made⟩ := ih member
      exact ⟨d, List.mem_cons_of_mem _ included, made⟩

theorem exists_column_of_mem (lines : List.Forall₂ (Defines single) cs ds) {line : Definition}
    (member : line ∈ ds) : ∃ c ∈ cs, Defines single c line := by
  induction lines with
  | nil => cases member
  | cons first _ ih =>
    rcases List.mem_cons.mp member with rfl | member
    · exact ⟨_, List.mem_cons_self, first⟩
    · obtain ⟨c, declared, defined⟩ := ih member
      exact ⟨c, List.mem_cons_of_mem _ declared, defined⟩

end Columns

theorem column_notMem_constraints (t : Table) (d : ColumnDefinition) :
    .column d ∉ constraints t := by
  unfold constraints
  split <;> simp

end CreateTable

end TypedSql
