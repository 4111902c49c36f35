import Mathlib.Data.List.Nodup
import TypedSql.Proofs.Definition.Lines
import TypedSql.Proofs.Text.Trim

/-! The identifiers in a statement that creates a table. A name loses the backticks on its edges, so
two names that a description tells apart can come to one identifier, and a name that is not blank can
come to none. -/
namespace TypedSql

open Text

section Names

variable {a b name : String}

theorem identifier_eq_iff : identifier a = identifier b ↔ bareName a = bareName b := by
  rw [← String.toList_inj, toList_identifier, toList_identifier, List.cons_inj_right,
    List.append_cancel_right_eq, String.toList_inj]

theorem identifier_eq (name : String) : identifier name = "`" ++ bareName name ++ "`" := by
  apply String.toList_inj.mp
  rw [toList_identifier, String.toList_append, String.toList_append]
  rfl

theorem isEdge_backtick_iff {c : Char} : Delimiters.backtick.isEdge c = true ↔ c = '\x60' := by
  rw [Delimiters.isEdge, Delimiters.backtick, Bool.or_self, beq_iff_eq]

theorem bareName_eq_empty_iff : bareName name = "" ↔ ∀ c ∈ name.toList, c = '\x60' := by
  rw [← String.toList_inj, bareName, String.toList_ofList, Delimiters.bare]
  exact trimBoth_eq_nil_iff.trans (forall₂_congr fun c _ => isEdge_backtick_iff)

end Names

def Definition.columnIdentifier? : Definition → Option String
  | .column d => some (identifier d.name)
  | .primaryKey _ | .unique _ | .foreignKey _ => none

namespace CreateTable

theorem columnIdentifiers_eq {single : Bool} {cs : List Column} {ds : List Definition}
    (lines : List.Forall₂ (Defines single) cs ds) :
    ds.filterMap Definition.columnIdentifier? = cs.map (identifier ·.name) := by
  induction lines with
  | nil => rfl
  | cons first _ ih =>
    obtain ⟨d, made, rfl⟩ := first
    obtain ⟨name, -⟩ := ColumnDefinition.key_of_ofColumn made
    rw [List.map_cons, ← ih, ← name]
    rfl

def columnIdentifiers (s : CreateTable) : List String :=
  s.definitions.filterMap Definition.columnIdentifier?

variable {t : Table} {options : CreateOptions} {s : CreateTable}

theorem columnIdentifier?_constraints (t : Table) :
    (constraints t).filterMap Definition.columnIdentifier? = [] := by
  rw [List.filterMap_eq_nil_iff]
  intro line member
  cases line with
  | column d => exact absurd member (column_notMem_constraints t d)
  | primaryKey | unique | foreignKey => rfl

theorem columnIdentifiers_of_ofSchema (made : ofSchema t options = .ok s) :
    s.columnIdentifiers = t.columnNames.map identifier := by
  obtain ⟨ds, written, rfl⟩ := exists_columnDefinitions made
  rw [columnIdentifiers, List.filterMap_append, columnIdentifier?_constraints, List.append_nil,
    columnIdentifiers_eq (defines_columnDefinitions written), Table.columnNames, List.map_map]
  rfl

/-- The first backtick of a statement opens the identifier of the table. -/
theorem exists_render_eq (s : CreateTable) : ∃ opening rest : String, '\x60' ∉ opening.toList ∧
    s.render = opening ++ identifier s.name ++ rest := by
  let opening := "CREATE " ++ (if s.options.temporary then "TEMP " else "") ++ "TABLE " ++
    (if s.options.ifNotExists then "IF NOT EXISTS " else "")
  let rest := " (\n" ++ String.intercalate ",\n" (s.definitions.map ("\t" ++ ·.render)) ++ "\n)" ++
    (if s.withoutRowid then " WITHOUT ROWID" else "") ++
    (if s.options.strict then " STRICT" else "") ++ ";"
  refine ⟨opening, rest, ?_, ?_⟩
  · cases temporary : s.options.temporary <;> cases existing : s.options.ifNotExists <;>
      simp [opening, temporary, existing]
  · simp only [render, header, opening, rest, String.append_assoc]

end CreateTable

namespace Table

/-- The columns of a table that was built have different identifiers if and only if no two of their
names become one without the backticks on their edges. The table has an empty identifier, where it
is created and where it is dropped, if and only if its name is made of backticks alone. -/
theorem createText_identifiers_distinct_iff {name : String} {steps : List TableStep} {t : Table}
    {options : CreateOptions} {text : String} (built : build name steps = .ok t)
    (written : t.createText options = .ok text) :
    (∃ s, CreateTable.ofSchema t options = .ok s ∧ s.render = text ∧
      (s.columnIdentifiers.Nodup ↔ ∀ a ∈ (described name steps).columnNames,
        ∀ b ∈ (described name steps).columnNames, bareName a = bareName b → a = b)) ∧
    (∃ opening rest : String, '\x60' ∉ opening.toList ∧
      text = opening ++ identifier name ++ rest) ∧
    t.dropText = "DROP TABLE IF EXISTS " ++ identifier name ++ ";" ∧
    identifier name = "`" ++ bareName name ++ "`" ∧
    (bareName name = "" ↔ ∀ c ∈ name.toList, c = '\x60') := by
  rw [build, ofSteps_eq_described] at built
  obtain ⟨-, -, -, -, -, -, -, -, settled⟩ := validate_eq_ok_iff.mp built
  have named : t.name = name := by
    rw [← settled]
    exact name_foldKey
  have columns : t.columnNames = (described name steps).columnNames := by
    rw [← settled]
    exact columnNames_foldKey
  have distinct := (wellFormed_of_validate_eq_ok built).columnNames_nodup
  obtain ⟨s, made, rfl⟩ := createText_eq_ok_iff.mp written
  have same : s.name = name := by
    obtain ⟨ds, -, rfl⟩ := CreateTable.exists_columnDefinitions made
    exact named
  refine ⟨⟨s, made, rfl, ?_⟩, ?_, ?_, identifier_eq name, bareName_eq_empty_iff⟩
  · rw [CreateTable.columnIdentifiers_of_ofSchema made, columns, List.nodup_map_iff_inj_on distinct]
    simp only [identifier_eq_iff]
  · rw [← same]
    exact s.exists_render_eq
  · rw [← named]
    rfl

def integerColumns (names : List String) : List TableStep :=
  names.map fun name => .column (Column.plain name ⟨.int .i64, false⟩)

/-- Backticks on the edges of names do no harm as long as something else tells the names apart. -/
theorem createText_identifiers_distinct_iff_edged :
    ∃ t text s, build "`t" (integerColumns ["a", "`b`"]) = .ok t ∧
      t.createText .none = .ok text ∧ CreateTable.ofSchema t .none = .ok s ∧ s.render = text ∧
      s.columnIdentifiers.Nodup ∧ identifier "`t" ≠ "``" := by
  have built : build "`t" (integerColumns ["a", "`b`"]) =
      .ok (described "`t" (integerColumns ["a", "`b`"])) := by rfl
  have written : (described "`t" (integerColumns ["a", "`b`"])).createText .none =
      .ok "CREATE TABLE `t` (\n\t`a` INTEGER NOT NULL,\n\t`b` INTEGER NOT NULL\n);" := by rfl
  obtain ⟨⟨s, made, same, distinct⟩, -, -, -, -⟩ := createText_identifiers_distinct_iff built written
  exact ⟨_, _, s, built, written, made, same, distinct.mpr (by decide), by decide⟩

/-- Two columns with one identifier, and a table with none, both accepted. -/
theorem exists_built_not_nodup_identifiers :
    (∃ t s, build "t" (integerColumns ["a", "`a`"]) = .ok t ∧
      CreateTable.ofSchema t .none = .ok s ∧ ¬s.columnIdentifiers.Nodup ∧
      s.render = "CREATE TABLE `t` (\n\t`a` INTEGER NOT NULL,\n\t`a` INTEGER NOT NULL\n);") ∧
    ∃ t, build "`" (integerColumns ["a"]) = .ok t ∧
      t.createText .none = .ok "CREATE TABLE `` (\n\t`a` INTEGER NOT NULL\n);" ∧
      t.dropText = "DROP TABLE IF EXISTS ``;" := by
  constructor
  · refine ⟨described "t" (integerColumns ["a", "`a`"]), _, by rfl, by rfl, ?_, by rfl⟩
    decide
  · exact ⟨described "`" (integerColumns ["a"]), by rfl, by rfl, by rfl⟩

end Table

end TypedSql
