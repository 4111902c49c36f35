import TypedSql.Record
import TypedSql.Proofs.Outcome

/-! Reading rows. The cells of a row that a table knows are read one after the other, each by the
category of the column with its name, and the first that does not read gives the error of the
row. -/
namespace TypedSql

/-- A cell under the name of a column that a table has, with the category of that column. -/
structure KnownCell where
  name : String
  category : Category
  cell : Cell
  deriving DecidableEq, Repr

namespace KnownCell

/-- The field is what the cell reads as, under its name. -/
def ReadsAs (k : KnownCell) (field : String × Value) : Prop :=
  field.1 = k.name ∧ Cell.read k.category k.cell = .ok field.2

def read (k : KnownCell) : Except ConversionError (String × Value) :=
  ((Cell.read k.category k.cell).mapError (.inColumn k.name)).map (k.name, ·)

variable {k : KnownCell} {field : String × Value} {e : ConversionError}

theorem read_eq_ok_iff : k.read = .ok field ↔ k.ReadsAs field := by
  obtain ⟨name, v⟩ := field
  simp only [read, ReadsAs, map_eq_ok_iff, mapError_eq_ok_iff, Prod.mk.injEq]
  constructor
  · rintro ⟨_, h, rfl, rfl⟩
    exact ⟨rfl, h⟩
  · rintro ⟨rfl, h⟩
    exact ⟨v, h, rfl, rfl⟩

theorem read_eq_error_iff :
    k.read = .error e ↔
      ∃ cause, Cell.read k.category k.cell = .error cause ∧ e = .inColumn k.name cause :=
  map_eq_error_iff.trans mapError_eq_error_iff

/-- The error of the first of some cells that does not read. -/
def FirstError (cells : List KnownCell) (e : ConversionError) : Prop :=
  ∃ before k after cause, cells = before ++ k :: after ∧
    (∀ b ∈ before, ∃ field, b.ReadsAs field) ∧
    Cell.read k.category k.cell = .error cause ∧ e = .inColumn k.name cause

theorem mapM_read_eq_ok_iff {cells : List KnownCell} {fields : List (String × Value)} :
    cells.mapM read = .ok fields ↔ List.Forall₂ ReadsAs cells fields := by
  simp only [mapM_eq_ok_iff, read_eq_ok_iff]

theorem mapM_read_eq_error_iff {cells : List KnownCell} :
    cells.mapM read = .error e ↔ FirstError cells e := by
  simp only [mapM_eq_error_iff, read_eq_ok_iff, read_eq_error_iff, ← exists_and_left, FirstError]

end KnownCell

namespace Table

/-- The cells of a row that the table has columns for, in the order of the row. -/
def knownCells (t : Table) (row : List (String × Cell)) : List KnownCell :=
  row.filterMap fun (name, cell) => (t.column? name).map fun c => ⟨name, c.category, cell⟩

variable {t : Table} {row : List (String × Cell)} {rows : List (List (String × Cell))} {r : Record}
  {e : ConversionError}

theorem knownCells_cons (t : Table) (name : String) (cell : Cell) (rest : List (String × Cell)) :
    t.knownCells ((name, cell) :: rest) =
      ((t.column? name).map fun c => ⟨name, c.category, cell⟩).toList ++ t.knownCells rest := by
  simp only [knownCells, List.filterMap_cons]
  cases t.column? name <;> rfl

theorem readFields_eq (t : Table) (row : List (String × Cell)) :
    t.readFields row = (t.knownCells row).mapM KnownCell.read := by
  induction row with
  | nil => rfl
  | cons head rest ih =>
    obtain ⟨name, cell⟩ := head
    rw [readFields, knownCells_cons]
    cases t.column? name with
    | none => exact ih
    | some c =>
      rw [Option.map_some, Option.toList_some, List.singleton_append, List.mapM_cons, ← ih]
      simp only [KnownCell.read]
      cases Cell.read c.category cell <;> rfl

/-- A row reads as the record of what its known cells read as, and as no other. -/
theorem readRow_eq_ok_iff :
    t.readRow row = .ok r ↔ List.Forall₂ KnownCell.ReadsAs (t.knownCells row) r.fields := by
  obtain ⟨fields⟩ := r
  simp only [readRow, readFields_eq, map_eq_ok_iff, Record.mk.injEq, exists_eq_right,
    KnownCell.mapM_read_eq_ok_iff]

/-- A row does not read because of the first known cell that does not. -/
theorem readRow_eq_error_iff :
    t.readRow row = .error e ↔ KnownCell.FirstError (t.knownCells row) e := by
  rw [readRow, readFields_eq, map_eq_error_iff, KnownCell.mapM_read_eq_error_iff]

end Table

end TypedSql
