import TypedSql.Proofs.Definition.Identifiers
import TypedSql.Proofs.Record

/-! Columns of a created table under the names that its rows give them. A row names a column by what
stands between the delimiters of its identifier, and a reader looks for a column of exactly that
name: a name that loses backticks on its edges is not found again. -/
namespace TypedSql

open Text

/-- The name that an identifier in backticks stands for: the text up to the next backtick, which has
to be the last character. -/
def quotedName? (identifier : String) : Option String :=
  match identifier.toList with
  | '\x60' :: rest =>
    if rest.dropWhile (· != '\x60') = ['\x60'] then
      some (String.ofList (rest.takeWhile (· != '\x60')))
    else none
  | _ => none

/-- No backtick stands on an edge of the name. -/
def IsBareName (name : String) : Prop :=
  name.toList.head? ≠ some '\x60' ∧ name.toList.getLast? ≠ some '\x60'

instance (name : String) : Decidable (IsBareName name) := inferInstanceAs (Decidable (_ ∧ _))

section Names

variable {name : String}

theorem quotedName?_identifier (plain : IsPlainName name) :
    quotedName? (identifier name) = some (bareName name) := by
  have inside : ∀ c ∈ (bareName name).toList, (c != '\x60') = true := by
    intro c member
    rw [bne_iff_ne]
    rintro rfl
    exact plain member
  have stop : ∀ c ∈ ['\x60'].head?, (c != '\x60') = false := by simp
  rw [quotedName?, toList_identifier]
  simp only [dropWhile_append_eq inside stop, takeWhile_append_eq inside stop, if_true,
    String.ofList_toList]

theorem bareName_eq_self_iff : bareName name = name ↔ IsBareName name := by
  have edge : ∀ o : Option Char,
      (∀ c ∈ o, Delimiters.backtick.isEdge c = false) ↔ o ≠ some '\x60' := by
    intro o
    cases o with
    | none => simp
    | some c => simp [← Bool.not_eq_true, isEdge_backtick_iff]
  rw [← String.toList_inj, bareName, String.toList_ofList, Delimiters.bare, trimBoth_eq_self_iff,
    edge, edge, IsBareName]

theorem bareName_bareName (name : String) : bareName (bareName name) = bareName name := by
  simp only [bareName, Delimiters.bare, String.toList_ofList, trimBoth_trimBoth]

end Names

namespace CreateTable

/-- The names that the rows of the created table have for its columns. -/
def columnNames? (s : CreateTable) : Option (List String) := s.columnIdentifiers.mapM quotedName?

theorem columnNames?_of_ofSchema {t : Table} {options : CreateOptions} {s : CreateTable}
    (made : ofSchema t options = .ok s) (plain : ∀ c ∈ t.columns, IsPlainName c.name) :
    s.columnNames? = some (t.columns.map (bareName ·.name)) := by
  rw [columnNames?, columnIdentifiers_of_ofSchema made, Table.columnNames]
  apply mapM_eq_some_iff.mpr
  rw [List.forall₂_map_left_iff, List.forall₂_map_left_iff, List.forall₂_map_right_iff,
    List.forall₂_same]
  exact fun c member => quotedName?_identifier (plain c member)

end CreateTable

namespace Table

section Lookup

variable {t : Table} {c : Column}

theorem column?_bareName_iff (distinct : t.columnNames.Nodup) (member : c ∈ t.columns) :
    t.column? (bareName c.name) = some c ↔ IsBareName c.name := by
  rw [← bareName_eq_self_iff]
  constructor
  · intro found
    rw [column?] at found
    have same := List.find?_some found
    exact (eq_of_beq same).symm
  · intro same
    rw [same]
    exact column?_of_nodup distinct member

/-- Where no two columns share a created name, a column is found under its own or not at all. -/
theorem column?_bareName (distinct : (t.columns.map (bareName ·.name)).Nodup)
    (member : c ∈ t.columns) :
    t.column? (bareName c.name) = if IsBareName c.name then some c else none := by
  split
  case isTrue bare =>
    have names : t.columnNames.Nodup := by
      apply List.Nodup.of_map bareName
      rwa [columnNames, List.map_map]
    exact (column?_bareName_iff names member).mpr bare
  case isFalse edged =>
    rw [column?, List.find?_eq_none]
    intro d other same
    have named : d.name = bareName c.name := eq_of_beq same
    have shared : bareName d.name = bareName c.name := by rw [named, bareName_bareName]
    obtain rfl : d = c := List.inj_on_of_nodup_map distinct other member shared
    exact edged (bareName_eq_self_iff.mp named.symm)

theorem knownCells_bareNames (distinct : (t.columns.map (bareName ·.name)).Nodup)
    (cells : List Cell) :
    t.knownCells ((t.columns.map (bareName ·.name)).zip cells) =
      ((t.columns.zip cells).filter (IsBareName ·.1.name)).map fun p =>
        ⟨p.1.name, p.1.category, p.2⟩ := by
  rw [knownCells, List.zip_map_left, List.filterMap_map, ← List.filterMap_eq_filter,
    List.map_filterMap]
  refine List.filterMap_congr fun p member => ?_
  obtain ⟨c, cell⟩ := p
  have among : c ∈ t.columns := (List.of_mem_zip member).1
  simp only [Function.comp_apply, Prod.map_apply, id_eq, column?_bareName distinct among,
    Option.guard_apply]
  by_cases bare : IsBareName c.name
  · simp [bare, bareName_eq_self_iff.mpr bare]
  · simp [bare]

end Lookup

theorem columnNames_nodup_of_build {name : String} {steps : List TableStep} {t : Table}
    (built : build name steps = .ok t) : t.columnNames.Nodup := by
  obtain ⟨-, columns, -, -, -, -, -, -, rfl⟩ := validate_eq_ok_iff.mp built
  rw [columnNames_foldKey]
  exact (checkColumns_eq_ok_iff.mp columns).2

/-- Readable cells for all columns of a table give its row a record. -/
theorem exists_readRow_bareNames {t : Table}
    (distinct : (t.columns.map (bareName ·.name)).Nodup) {cells : List Cell}
    (readable : ∀ p ∈ t.columns.zip cells, ∃ v, Cell.read p.1.category p.2 = .ok v) :
    ∃ r, t.readRow ((t.columns.map (bareName ·.name)).zip cells) = .ok r ∧
      List.Forall₂ (fun p field => field.1 = p.1.name ∧ Cell.read p.1.category p.2 = .ok field.2)
        ((t.columns.zip cells).filter (IsBareName ·.1.name)) r.fields := by
  have known := knownCells_bareNames distinct cells
  cases read : t.readRow ((t.columns.map (bareName ·.name)).zip cells) with
  | ok r =>
    have fields := readRow_eq_ok_iff.mp read
    rw [known, List.forall₂_map_left_iff] at fields
    exact ⟨r, rfl, fields⟩
  | error e =>
    obtain ⟨before, k, after, cause, split, -, failed, -⟩ := readRow_eq_error_iff.mp read
    have member : k ∈ before ++ k :: after := List.mem_append_right _ List.mem_cons_self
    rw [← split, known] at member
    obtain ⟨p, among, rfl⟩ := List.mem_map.mp member
    obtain ⟨v, passed⟩ := readable p (List.mem_of_mem_filter among)
    rw [passed] at failed
    cases failed

theorem length_filter_zip_eq_iff {α β : Type} (keep : α → Prop) [DecidablePred keep] {xs : List α}
    {ys : List β} (full : ys.length = xs.length) :
    ((xs.zip ys).filter (keep ·.1)).length = xs.length ↔ ∀ x ∈ xs, keep x := by
  have firsts : (xs.zip ys).map Prod.fst = xs := List.map_fst_zip full.ge
  have length : (xs.zip ys).length = xs.length := by rw [← List.length_map Prod.fst, firsts]
  rw [← length, List.length_filter_eq_length_iff]
  conv_rhs => rw [← firsts, List.forall_mem_map]
  simp only [decide_eq_true_eq]

/-- The columns of a table that was built are found under the names that the created table has for
them if and only if no backtick stands on an edge of their names. A full row of the created table
reads as the fields of just these columns, in order and each by its own category, so that there is a
field for every column if and only if no name has such a backtick. -/
theorem column?_createdName_iff {name : String} {steps : List TableStep} {t : Table}
    {options : CreateOptions} {text : String} (built : build name steps = .ok t)
    (written : t.createText options = .ok text) (plain : ∀ c ∈ t.columns, IsPlainName c.name) :
    ∃ s names, CreateTable.ofSchema t options = .ok s ∧ s.render = text ∧
      s.columnNames? = some names ∧
      List.Forall₂ (fun c created => t.column? created = some c ↔ IsBareName c.name)
        t.columns names ∧
      ∀ cells : List Cell, cells.length = t.columns.length → names.Nodup →
        (∀ p ∈ t.columns.zip cells, ∃ v, Cell.read p.1.category p.2 = .ok v) →
        ∃ r, t.readRow (names.zip cells) = .ok r ∧
          List.Forall₂ (fun p field => field.1 = p.1.name ∧ Cell.read p.1.category p.2 = .ok field.2)
            ((t.columns.zip cells).filter (IsBareName ·.1.name)) r.fields ∧
          (r.length = t.columns.length ↔ ∀ c ∈ t.columns, IsBareName c.name) := by
  have distinct := columnNames_nodup_of_build built
  obtain ⟨s, made, same⟩ := createText_eq_ok_iff.mp written
  refine ⟨s, _, made, same, CreateTable.columnNames?_of_ofSchema made plain, ?_, ?_⟩
  · rw [List.forall₂_map_right_iff, List.forall₂_same]
    exact fun c member => column?_bareName_iff distinct member
  · intro cells full apart readable
    obtain ⟨r, read, fields⟩ := exists_readRow_bareNames apart readable
    refine ⟨r, read, fields, ?_⟩
    rw [Record.length, ← fields.length_eq]
    exact length_filter_zip_eq_iff (fun c : Column => IsBareName c.name) full

/-- The number of a note, and its text under a name in backticks. -/
def noteSteps : List TableStep :=
  [.column (Column.plain "id" ⟨.int .i64, false⟩), .column (Column.plain "`body`" ⟨.text, false⟩)]

def noteCells : List Cell := [.text " 7 ", .text "it's"]

/-- A number is read from text, and the text beside it is lost. -/
theorem column?_createdName_iff_notes :
    ∃ t text s r, build "notes" noteSteps = .ok t ∧ t.createText .none = .ok text ∧
      (∀ c ∈ t.columns, IsPlainName c.name) ∧ noteCells.length = t.columns.length ∧
      ["id", "body"].Nodup ∧
      (∀ p ∈ t.columns.zip noteCells, ∃ v, Cell.read p.1.category p.2 = .ok v) ∧
      CreateTable.ofSchema t .none = .ok s ∧ s.columnNames? = some ["id", "body"] ∧
      t.readRow (["id", "body"].zip noteCells) = .ok r ∧ r.length = 1 ∧
      r.length ≠ t.columns.length := by
  have built : build "notes" noteSteps = .ok (described "notes" noteSteps) := by rfl
  have written : (described "notes" noteSteps).createText .none =
      .ok "CREATE TABLE `notes` (\n\t`id` INTEGER NOT NULL,\n\t`body` TEXT NOT NULL\n);" := by rfl
  have plain : ∀ c ∈ (described "notes" noteSteps).columns, IsPlainName c.name := by decide
  have readable : ∀ p ∈ (described "notes" noteSteps).columns.zip noteCells,
      ∃ v, Cell.read p.1.category p.2 = .ok v := by
    intro p member
    rcases List.mem_pair.mp member with rfl | rfl
    · exact ⟨.integer ⟨7, by decide, by decide⟩, by rfl⟩
    · exact ⟨.text "it's", by rfl⟩
  obtain ⟨s, names, made, -, created, -, rows⟩ := column?_createdName_iff built written plain
  obtain rfl : names = ["id", "body"] := by
    rw [CreateTable.columnNames?_of_ofSchema made plain] at created
    exact (Option.some.inj created).symm
  obtain ⟨r, read, fields, complete⟩ := rows noteCells rfl (by decide) readable
  have short : r.length = 1 := fields.length_eq.symm
  refine ⟨_, _, s, r, built, written, plain, rfl, by decide, readable, made, created, read, short, ?_⟩
  rw [short]
  decide

/-- A column that no row of the created table is read for. -/
theorem exists_built_column_not_found :
    ∃ t s, build "t" (integerColumns ["`a`"]) = .ok t ∧ (∀ c ∈ t.columns, IsPlainName c.name) ∧
      CreateTable.ofSchema t .none = .ok s ∧
      s.render = "CREATE TABLE `t` (\n\t`a` INTEGER NOT NULL\n);" ∧
      s.columnNames? = some ["a"] ∧ t.column? "a" = none ∧
      t.readRow [("a", .integer ⟨1, by decide, by decide⟩)] = .ok .empty := by
  refine ⟨described "t" (integerColumns ["`a`"]), _, by rfl, by decide, by rfl, by rfl, ?_, by decide,
    by rfl⟩
  decide

end Table

end TypedSql
