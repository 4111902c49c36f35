import TypedSql.Proofs.Record

/-! Reading a row by the names of its cells. A name that a table has more than once means the first
column of that name, and a name that a record has more than once its first field. So a record answers
for a name with what the first cell of that name reads as, if the table has a column for it. -/
namespace TypedSql

namespace Table

/-- The column that a name means: the first one of that name. -/
def Means (t : Table) (name : String) (c : Column) : Prop :=
  ∃ before after, t.columns = before ++ c :: after ∧ c.name = name ∧ ∀ d ∈ before, d.name ≠ name

/-- The cell reads by the category of the column that its name means. A name without a column asks
nothing of its cell. -/
def IsReadable (t : Table) (cell : String × Cell) : Prop :=
  ∀ c, t.Means cell.1 c → ∃ v, Cell.read c.category cell.2 = .ok v

/-- The field has the name of the cell, and the value that the cell reads as. -/
def Gives (t : Table) (cell : String × Cell) (field : String × Value) : Prop :=
  field.1 = cell.1 ∧ ∃ c, t.Means cell.1 c ∧ Cell.read c.category cell.2 = .ok field.2

variable {t : Table} {row : List (String × Cell)} {fields : List (String × Value)} {r : Record}
  {e : ConversionError} {name : String} {c : Column}

theorem column?_eq_some_iff : t.column? name = some c ↔ t.Means name c := by
  simp only [column?, List.find?_eq_some_iff_append, Means, beq_iff_eq, Bool.not_eq_true',
    beq_eq_false_iff_ne]
  constructor
  · rintro ⟨same, before, after, split, others⟩
    exact ⟨before, after, split, same, others⟩
  · rintro ⟨before, after, split, same, others⟩
    exact ⟨same, before, after, split, others⟩

theorem isSome_column?_eq (t : Table) (name : String) : (t.column? name).isSome = t.declares name := by
  rw [Bool.eq_iff_iff, column?, declares, List.find?_isSome, List.any_eq_true]

theorem declares_iff : t.declares name = true ↔ ∃ c, t.Means name c := by
  rw [← isSome_column?_eq, Option.isSome_iff_exists]
  simp only [column?_eq_some_iff]

/-- The cells of a row that have a column, one after the other, give the fields of known cells. -/
theorem forall₂_gives_iff :
    List.Forall₂ t.Gives (row.filter (t.declares ·.1)) fields ↔
      List.Forall₂ KnownCell.ReadsAs (t.knownCells row) fields := by
  induction row generalizing fields with
  | nil => simp [knownCells]
  | cons cell rest ih =>
    obtain ⟨name, cell⟩ := cell
    rw [knownCells_cons, List.filter_cons, ← isSome_column?_eq]
    cases found : t.column? name with
    | none => simpa using ih
    | some c =>
      have means : ∀ d, t.Means name d ↔ d = c := by
        intro d
        rw [← column?_eq_some_iff, found, Option.some.injEq, eq_comm]
      simp [List.forall₂_cons_left_iff, ih, Gives, KnownCell.ReadsAs, means]

theorem isReadable_of_gives (gives : List.Forall₂ t.Gives (row.filter (t.declares ·.1)) fields) :
    ∀ cell ∈ row, t.IsReadable cell := by
  intro cell member c means
  have known : cell ∈ row.filter (t.declares ·.1) :=
    List.mem_filter.mpr ⟨member, declares_iff.mpr ⟨c, means⟩⟩
  obtain ⟨field, -, d, means', read⟩ := exists_forall₂_iff.mp ⟨fields, gives⟩ cell known
  obtain rfl : d = c := Option.some.inj
    ((column?_eq_some_iff.mpr means').symm.trans (column?_eq_some_iff.mpr means))
  exact ⟨field.2, read⟩

theorem knownCells_eq (t : Table) (row : List (String × Cell)) :
    t.knownCells row =
      row.filterMap fun cell => (t.column? cell.1).map fun c => ⟨cell.1, c.category, cell.2⟩ := rfl

/-- The cells in front of the first one that does not read are readable or have no column. -/
theorem exists_of_firstError (first : KnownCell.FirstError (t.knownCells row) e) :
    ∃ before name cell after c cause, row = before ++ (name, cell) :: after ∧
      (∀ b ∈ before, t.IsReadable b) ∧ t.Means name c ∧ Cell.read c.category cell = .error cause ∧
      e = .inColumn name cause := by
  obtain ⟨known, k, rest, cause, split, readable, failed, rfl⟩ := first
  rw [knownCells_eq] at split
  obtain ⟨before, behind, rfl, firsts, others⟩ := List.filterMap_eq_append_iff.mp split
  obtain ⟨skipped, ⟨name, cell⟩, after, rfl, unknown, found, -⟩ := List.filterMap_eq_cons_iff.mp others
  obtain ⟨c, column, rfl⟩ := Option.map_eq_some_iff.mp found
  refine ⟨before ++ skipped, name, cell, after, c, cause, (List.append_assoc ..).symm, ?_,
    column?_eq_some_iff.mp column, failed, rfl⟩
  intro b member d means
  have column := column?_eq_some_iff.mpr means
  rcases List.mem_append.mp member with inside | inside
  · have among : ⟨b.1, d.category, b.2⟩ ∈ known := by
      rw [← firsts]
      exact List.mem_filterMap.mpr ⟨b, inside, by rw [column, Option.map_some]⟩
    obtain ⟨field, -, read⟩ := readable _ among
    exact ⟨field.2, read⟩
  · have absent := unknown b inside
    rw [column, Option.map_some] at absent
    contradiction

/-- A record answers for a name by two first matches: the cell of the row and the column of the
table. -/
theorem find?_of_readFields (read : t.readFields row = .ok fields) (name : String) :
    (fields.find? (·.1 == name)).map (·.2) =
      (row.find? (·.1 == name)).bind fun cell =>
        (t.column? name).bind fun c => (Cell.read c.category cell.2).toOption := by
  induction row generalizing fields with
  | nil =>
    cases read
    rfl
  | cons head rest ih =>
    obtain ⟨other, cell⟩ := head
    rw [readFields] at read
    cases found : t.column? other with
    | none =>
      simp only [found] at read
      rw [ih read]
      by_cases same : other = name
      · subst same
        simp [found]
      · simp [same]
    | some c =>
      simp only [found] at read
      obtain ⟨v, first, read⟩ := bind_eq_ok_iff.mp read
      obtain ⟨others, later, read⟩ := bind_eq_ok_iff.mp read
      cases read
      have first := mapError_eq_ok_iff.mp first
      by_cases same : other = name
      · subst same
        simp [found, first, Except.toOption]
      · simp [same, ih later]

theorem get?_of_readRow (read : t.readRow row = .ok r) (name : String) :
    r.get? name =
      (row.find? (·.1 == name)).bind fun cell =>
        (t.column? name).bind fun c => (Cell.read c.category cell.2).toOption := by
  obtain ⟨fields, passed, rfl⟩ := map_eq_ok_iff.mp read
  exact find?_of_readFields passed name

theorem get?_eq_some_iff {v : Value} (read : t.readRow row = .ok r) :
    r.get? name = some v ↔
      ∃ before cell after c, row = before ++ (name, cell) :: after ∧ (∀ b ∈ before, b.1 ≠ name) ∧
        t.Means name c ∧ Cell.read c.category cell = .ok v := by
  have success : ∀ result : Except ConversionError Value,
      result.toOption = some v ↔ result = .ok v := by
    intro result
    cases result <;> simp [Except.toOption]
  simp only [get?_of_readRow read, Option.bind_eq_some_iff, column?_eq_some_iff, success,
    List.find?_eq_some_iff_append, beq_iff_eq, Bool.not_eq_true', beq_eq_false_iff_ne]
  constructor
  · rintro ⟨⟨_, cell⟩, ⟨rfl, before, after, split, others⟩, c, means, read⟩
    exact ⟨before, cell, after, c, split, others, means, read⟩
  · rintro ⟨before, cell, after, c, split, others, means, read⟩
    exact ⟨(name, cell), ⟨rfl, before, after, split, others⟩, c, means, read⟩

theorem isSome_get?_iff (read : t.readRow row = .ok r) (readable : ∀ cell ∈ row, t.IsReadable cell) :
    (r.get? name).isSome ↔ (∃ c, t.Means name c) ∧ ∃ cell, (name, cell) ∈ row := by
  rw [Option.isSome_iff_exists]
  constructor
  · rintro ⟨v, found⟩
    obtain ⟨before, cell, after, c, rfl, -, means, -⟩ := (get?_eq_some_iff read).mp found
    exact ⟨⟨c, means⟩, cell, List.mem_append_right _ List.mem_cons_self⟩
  · rintro ⟨⟨c, means⟩, cell, member⟩
    have named : (row.find? (·.1 == name)).isSome := by
      rw [List.find?_isSome]
      exact ⟨(name, cell), member, beq_self_eq_true name⟩
    obtain ⟨⟨other, first⟩, found⟩ := Option.isSome_iff_exists.mp named
    have same := List.find?_some found
    rw [beq_iff_eq] at same
    obtain rfl : other = name := same
    obtain ⟨v, value⟩ := readable _ (List.mem_of_find?_eq_some found) c means
    refine ⟨v, ?_⟩
    rw [get?_of_readRow read, found, column?_eq_some_iff.mpr means]
    simp [value, Except.toOption]

/-- A row is read as a whole or not at all, and by its names alone. If some cell does not read by the
category of the column that its name means, the row gives the error of the first such cell behind
the name of its column. Otherwise it gives a record of the cells that have a column, in order and
with repeated names, and the record answers for a name if and only if the name has a column and a
cell, with what the first cell of that name reads as. -/
theorem readRow_by_name (t : Table) (row : List (String × Cell)) :
    (∃ before name cell after c cause, row = before ++ (name, cell) :: after ∧
      (∀ b ∈ before, t.IsReadable b) ∧ t.Means name c ∧
      Cell.read c.category cell = .error cause ∧ t.readRow row = .error (.inColumn name cause) ∧
      (ConversionError.inColumn name cause).message = "column `" ++ name ++ "`: " ++ cause.message) ∨
    ((∀ cell ∈ row, t.IsReadable cell) ∧
      ∃ r, t.readRow row = .ok r ∧
        List.Forall₂ t.Gives (row.filter (t.declares ·.1)) r.fields ∧
        ∀ name,
          ((r.get? name).isSome ↔ (∃ c, t.Means name c) ∧ ∃ cell, (name, cell) ∈ row) ∧
          ∀ v, r.get? name = some v ↔
            ∃ before cell after c, row = before ++ (name, cell) :: after ∧
              (∀ b ∈ before, b.1 ≠ name) ∧ t.Means name c ∧ Cell.read c.category cell = .ok v) := by
  cases read : t.readRow row with
  | error e =>
    obtain ⟨before, name, cell, after, c, cause, split, readable, means, failed, rfl⟩ :=
      exists_of_firstError (readRow_eq_error_iff.mp read)
    exact Or.inl ⟨before, name, cell, after, c, cause, split, readable, means, failed, rfl, rfl⟩
  | ok r =>
    have gives := forall₂_gives_iff.mpr (readRow_eq_ok_iff.mp read)
    have readable := isReadable_of_gives gives
    exact Or.inr ⟨readable, r, rfl, gives, fun name =>
      ⟨isSome_get?_iff read readable, fun v => get?_eq_some_iff read⟩⟩

end Table

end TypedSql
