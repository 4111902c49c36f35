import TypedSql.Table.Build

/-! What a sequence of steps describes, which descriptions are well formed, what a table built from
one has to be, and what an error says about one. None of it mentions the checks: steps are read
off one kind at a time, and the rules of keys are stated on the columns as they were declared. -/
namespace TypedSql

namespace TableStep

def column? : TableStep → Option Column
  | .column c => some c
  | _ => none

def compositeKey? : TableStep → Option (List String)
  | .compositeKey columns => some columns
  | _ => none

def unique? : TableStep → Option UniqueGroup
  | .unique u => some u
  | _ => none

def foreignKey? : TableStep → Option ForeignKey
  | .foreignKey k => some k
  | _ => none

end TableStep

namespace Table

/-- The columns, groups and foreign keys of the steps in order, the last composite key among them,
and whether one of them leaves the row number out. -/
def described (name : String) (steps : List TableStep) : Table where
  name := name
  columns := steps.filterMap TableStep.column?
  compositeKey := (steps.filterMap TableStep.compositeKey?).getLast?.getD []
  uniques := steps.filterMap TableStep.unique?
  foreignKeys := steps.filterMap TableStep.foreignKey?
  withoutRowid := steps.contains .withoutRowid

theorem foldl_extend (t : Table) (steps : List TableStep) :
    steps.foldl extend t =
      { name := t.name
        columns := t.columns ++ steps.filterMap TableStep.column?
        compositeKey := (steps.filterMap TableStep.compositeKey?).getLast?.getD t.compositeKey
        uniques := t.uniques ++ steps.filterMap TableStep.unique?
        foreignKeys := t.foreignKeys ++ steps.filterMap TableStep.foreignKey?
        withoutRowid := t.withoutRowid || steps.contains .withoutRowid } := by
  induction steps generalizing t with
  | nil => simp
  | cons step rest ih =>
    rw [List.foldl_cons, ih]
    cases step <;>
      simp [extend, TableStep.column?, TableStep.compositeKey?, TableStep.unique?,
        TableStep.foreignKey?, List.filterMap_cons, List.getLast?_cons]

theorem ofSteps_eq_described (name : String) (steps : List TableStep) :
    ofSteps name steps = described name steps := by
  rw [ofSteps, foldl_extend]
  simp [empty, described]

def columnNames (t : Table) : List String := t.columns.map (·.name)

/-- The rules of a description. The key rules speak of the flags as declared: a composite key
excludes them, and a column that numbers its rows is flagged, alone, and without one. -/
structure WellFormed (t : Table) : Prop where
  named : ∃ c ∈ t.name.toList, Text.isBlank c = false
  columns_ne_nil : t.columns ≠ []
  columnNames_nodup : t.columnNames.Nodup
  key_exclusive : t.compositeKey ≠ [] → ∀ c ∈ t.columns, c.primaryKey = false
  autoincrement : ∀ c ∈ t.columns, c.autoincrement = true →
    c.primaryKey = true ∧ (∀ d ∈ t.columns, d.primaryKey = true → d = c) ∧ t.compositeKey = []
  rowid : t.withoutRowid = true → (∃ c ∈ t.columns, c.primaryKey = true) ∨ t.compositeKey ≠ []
  key_declared : ∀ name ∈ t.compositeKey, name ∈ t.columnNames
  uniques : ∀ u ∈ t.uniques, u.columns ≠ [] ∧ ∀ name ∈ u.columns, name ∈ t.columnNames
  foreignKeys : ∀ k ∈ t.foreignKeys, k.columns ≠ [] ∧
    k.columns.length = k.parentColumns.length ∧ ∀ name ∈ k.columns, name ∈ t.columnNames

/-- The table that a description stands for: the description itself, but with two flagged columns
or more the flags become the composite key. -/
structure Settles (d t : Table) : Prop where
  name : t.name = d.name
  uniques : t.uniques = d.uniques
  foreignKeys : t.foreignKeys = d.foreignKeys
  withoutRowid : t.withoutRowid = d.withoutRowid
  kept : d.flagged.length < 2 → t.columns = d.columns ∧ t.compositeKey = d.compositeKey
  folded : 2 ≤ d.flagged.length →
    t.columns = d.columns.map (fun c => { c with primaryKey := false }) ∧
      t.compositeKey = d.flagged.map (·.name)

/-- At most one of the two kinds of key is there, and columns are found by name. -/
structure Consistent (t : Table) : Prop where
  key_exclusive : t.compositeKey = [] ∨ t.flagged = []
  flagged_length_le : t.flagged.length ≤ 1
  hasSingleKey_iff : t.hasSingleKey = true ↔ ∃ c ∈ t.columns, c.primaryKey = true
  keyColumn?_eq : t.keyColumn? = t.flagged.head?
  column?_eq : ∀ c ∈ t.columns, t.column? c.name = some c

end Table

/-- What an error says about the description that was not accepted. -/
def TableError.Explains (d : Table) : TableError → Prop
  | .blankName => ∀ c ∈ d.name.toList, Text.isBlank c = true
  | .noColumns table => table = d.name ∧ d.columns = []
  | .repeatedColumn table column =>
    table = d.name ∧ ∃ before after, d.columnNames = before ++ column :: after ∧ column ∈ before
  | .twoKeys table column =>
    table = d.name ∧ d.compositeKey ≠ [] ∧ d.flagged.head?.map (·.name) = some column
  | .autoincrementOutsideKey table column =>
    table = d.name ∧ ∃ c ∈ d.columns, c.name = column ∧ c.autoincrement = true ∧
      ¬(d.flagged = [c] ∧ d.compositeKey = [])
  | .rowidNeedsKey table =>
    table = d.name ∧ d.withoutRowid = true ∧ d.flagged = [] ∧ d.compositeKey = []
  | .unknownColumn table column =>
    table = d.name ∧ column ∉ d.columnNames ∧ (column ∈ d.compositeKey ∨
      (∃ u ∈ d.uniques, column ∈ u.columns) ∨ ∃ k ∈ d.foreignKeys, column ∈ k.columns)
  | .emptyUnique table name => table = d.name ∧ ∃ u ∈ d.uniques, u.name = name ∧ u.columns = []
  | .keyArity table parent localCount parentCount =>
    table = d.name ∧ ∃ k ∈ d.foreignKeys, k.parent = parent ∧ k.columns.length = localCount ∧
      k.parentColumns.length = parentCount ∧ (localCount = 0 ∨ localCount ≠ parentCount)

end TypedSql
