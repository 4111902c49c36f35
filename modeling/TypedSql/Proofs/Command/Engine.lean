import Mathlib.Data.List.Nodup
import Mathlib.Data.List.Forall2
import TypedSql.Database
import TypedSql.Proofs.Outcome

/-! What is relied on of an engine, and the engine with one table that has it. -/
namespace TypedSql

open Numeric

/-- A placeholder that can be written in a statement and is found there by its text. -/
def Placeholder.IsNamed (p : Placeholder) : Prop :=
  p.sigil ≠ .positional ∧ p.name ≠ "" ∧ ∀ c ∈ p.name.toList, c.isAlphanum

theorem Placeholder.text_ne_positional {p : Placeholder} (named : p.IsNamed) :
    p.text ≠ positional.text := by
  obtain ⟨name, sigil⟩ := p
  intro same
  have chars := congrArg String.toList same
  cases sigil with
  | positional => exact named.1 rfl
  | colon | atSign | dollar => simp [text, positional] at chars

/-- An engine with a table whose columns take every cell as it is. -/
class TableEngine (δ : Type) extends Engine δ where
  columns : δ → List String
  rows : δ → List (List Cell)
  query_selectAll (db : δ) : query db .selectAll [] = .ok ⟨columns db, rows db⟩
  /-- An insertion stores for each column the cell that it is given under the name in the place of
  the column. -/
  execute_insert (db : δ) {ps : List Placeholder} {arguments : List Argument} {cells : List Cell}
    (named : ∀ p ∈ ps, p.IsNamed) (width : ps.length = (columns db).length)
    (distinct : (arguments.map Prod.fst).Nodup)
    (known : ∀ a ∈ arguments, a.1 ∈ ps.map Placeholder.text)
    (given : List.Forall₂ (fun p c => (p.text, .ok c) ∈ arguments) ps cells) :
    ∃ after, execute db (.insert (ps.map Placeholder.text)) arguments = (.ok 1, after) ∧
      columns after = columns db ∧ rows after = rows db ++ [cells.map Cell.normalized]
  /-- The first value without a cell is the error of an insertion, and nothing is stored. This
  is the documented behaviour of the library between the program and the database: it converts and
  binds the arguments one after another before the statement runs, and answers with the error of the
  first that has no cell. -/
  execute_insert_fault (db : δ) {ps : List Placeholder} {arguments : List Argument}
    {fault : RangeFault} (named : ∀ p ∈ ps, p.IsNamed) (width : ps.length = (columns db).length)
    (known : ∀ a ∈ arguments, a.1 ∈ ps.map Placeholder.text)
    (first : arguments.mapM Prod.snd = .error fault) :
    ∃ same, execute db (.insert (ps.map Placeholder.text)) arguments =
        (.error (.unstorable fault), same) ∧
      columns same = columns db ∧ rows same = rows db

namespace Statement

variable {s : Statement} {arguments : List Argument} {given : Assignment} {name : String}

/-- The names that an argument can be given to. -/
def Takes (s : Statement) (name : String) : Prop :=
  name ≠ Placeholder.positional.text ∧ name ∈ s.names

theorem assign_cons_ok (takes : s.Takes name) (c : Cell) (rest : List Argument) :
    s.assign given ((name, .ok c) :: rest) = s.assign ((name, c.normalized) :: given) rest := by
  rw [assign]
  exact if_pos takes

theorem assign_cons_error (takes : s.Takes name) (fault : RangeFault) (rest : List Argument) :
    s.assign given ((name, .error fault) :: rest) = .error (.unstorable fault) := by
  rw [assign]
  exact if_pos takes

/-- Distinct names have their cells in the end, and what was given before stays under the others. -/
theorem exists_assign (given : Assignment) (takes : ∀ a ∈ arguments, s.Takes a.1)
    (cells : ∀ a ∈ arguments, ∃ c, a.2 = .ok c) (distinct : (arguments.map Prod.fst).Nodup) :
    ∃ final, s.assign given arguments = .ok final ∧
      (∀ name c, (name, .ok c) ∈ arguments → final.lookup name = some c.normalized) ∧
      ∀ name ∉ arguments.map Prod.fst, final.lookup name = given.lookup name := by
  induction arguments generalizing given with
  | nil => exact ⟨given, rfl, by simp, by simp⟩
  | cons a rest ih =>
    obtain ⟨name, cell⟩ := a
    obtain ⟨⟨c, rfl⟩, others⟩ := List.forall_mem_cons.mp cells
    obtain ⟨first, takes⟩ := List.forall_mem_cons.mp takes
    rw [List.map_cons, List.nodup_cons] at distinct
    obtain ⟨final, assigned, found, kept⟩ :=
      ih ((name, c.normalized) :: given) takes others distinct.2
    refine ⟨final, (assign_cons_ok first c rest).trans assigned, ?_, ?_⟩
    · intro other d member
      rcases List.mem_cons.mp member with same | member
      · cases same
        rw [kept name distinct.1, List.lookup_cons_self]
      · exact found other d member
    · intro other absent
      rw [List.map_cons, List.mem_cons, not_or] at absent
      rw [kept other absent.2, List.lookup_cons, beq_false_of_ne absent.1]

theorem assign_fault (given : Assignment) {fault : RangeFault}
    (takes : ∀ a ∈ arguments, s.Takes a.1) (first : arguments.mapM Prod.snd = .error fault) :
    s.assign given arguments = .error (.unstorable fault) := by
  induction arguments generalizing given with
  | nil => cases first
  | cons a rest ih =>
    obtain ⟨name, cell⟩ := a
    obtain ⟨known, others⟩ := List.forall_mem_cons.mp takes
    rw [List.mapM_cons] at first
    rcases bind_eq_error_iff.mp first with same | ⟨c, same, later⟩
    · cases same
      exact assign_cons_error known fault rest
    · cases same
      rcases bind_eq_error_iff.mp later with later | ⟨_, _, later⟩
      · exact (assign_cons_ok known c rest).trans (ih _ others later)
      · cases later

theorem takes_insert {ps : List Placeholder} (named : ∀ p ∈ ps, p.IsNamed)
    (member : name ∈ ps.map Placeholder.text) : (insert (ps.map Placeholder.text)).Takes name := by
  obtain ⟨p, found, rfl⟩ := List.mem_map.mp member
  exact ⟨Placeholder.text_ne_positional (named p found), member⟩

end Statement

namespace Database

variable {ps : List Placeholder} {arguments : List Argument} {cells : List Cell}

/-- Each argument is the one that is given for a place, so it has a cell. -/
theorem exists_cell (distinct : (arguments.map Prod.fst).Nodup)
    (known : ∀ a ∈ arguments, a.1 ∈ ps.map Placeholder.text)
    (given : List.Forall₂ (fun p c => (p.text, .ok c) ∈ arguments) ps cells) :
    ∀ a ∈ arguments, ∃ c, a.2 = .ok c := by
  intro a member
  obtain ⟨p, place, same⟩ := List.mem_map.mp (known a member)
  obtain ⟨c, bound⟩ := exists_forall₂_iff.mp ⟨cells, given⟩ p place
  obtain rfl := List.inj_on_of_nodup_map distinct member bound same.symm
  exact ⟨c, rfl⟩

theorem run_insert (db : Database) (named : ∀ p ∈ ps, p.IsNamed)
    (distinct : (arguments.map Prod.fst).Nodup)
    (known : ∀ a ∈ arguments, a.1 ∈ ps.map Placeholder.text)
    (given : List.Forall₂ (fun p c => (p.text, .ok c) ∈ arguments) ps cells) :
    db.run (.insert (ps.map Placeholder.text)) arguments =
      (.ok 1, { db with rows := db.rows ++ [cells.map Cell.normalized] }) := by
  obtain ⟨final, assigned, found, -⟩ :=
    Statement.exists_assign [] (fun a member => Statement.takes_insert named (known a member))
      (exists_cell distinct known given) distinct
  have row : (ps.map Placeholder.text).map final.cell = cells.map Cell.normalized := by
    rw [← List.forall₂_eq_eq_eq, List.map_map, List.forall₂_map_left_iff,
      List.forall₂_map_right_iff]
    exact given.imp fun p c bound => by simp [Assignment.cell, found _ _ bound]
  simp only [run, assigned, change, row]

theorem run_insert_fault (db : Database) {fault : RangeFault} (named : ∀ p ∈ ps, p.IsNamed)
    (known : ∀ a ∈ arguments, a.1 ∈ ps.map Placeholder.text)
    (first : arguments.mapM Prod.snd = .error fault) :
    db.run (.insert (ps.map Placeholder.text)) arguments = (.error (.unstorable fault), db) := by
  have failed := Statement.assign_fault []
    (fun a member => Statement.takes_insert named (known a member)) first
  simp only [run, failed]

end Database

instance : TableEngine Database where
  columns := Database.columnNames
  rows := Database.rows
  query_selectAll _ := rfl
  execute_insert db _ _ _ named _ distinct known given :=
    ⟨_, db.run_insert named distinct known given, rfl, rfl⟩
  execute_insert_fault db _ _ _ named _ known first :=
    ⟨db, db.run_insert_fault named known first, rfl, rfl⟩

end TypedSql
