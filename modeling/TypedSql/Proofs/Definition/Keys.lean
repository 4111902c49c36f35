import TypedSql.Proofs.Definition.Reading

/-! The keys in a statement that creates a table, as they are read from its text. No description,
checked or not, gives a text with two key clauses. In the text for a table that was built there is one
whenever a key was declared, a column that numbers its rows is the key, and constraints name nothing
but columns that are defined before them. All this depends on texts that are read as what they are: a
collation, a default or a name can also bring clauses of its own. -/
namespace TypedSql

open Text Sql

namespace Sql

namespace Line

def columnName? : Line → Option String
  | .column name _ _ => some name
  | .primaryKey _ | .unique _ | .foreignKey .. => none

/-- What the line says about its columns, of which a constraint may have several. -/
def clauses : Line → List ColumnClause
  | .column _ _ clauses => clauses
  | .primaryKey _ => [.primaryKey]
  | .unique _ => [.unique]
  | .foreignKey .. => []

/-- A list of columns that are defined in these lines, at least one. -/
def Lists (lines : List Line) (names : List String) : Prop :=
  names ≠ [] ∧ ∀ name ∈ names, name ∈ lines.filterMap columnName?

/-- A constraint is about columns that are defined in these lines, and a foreign key has as many of
them as there are parent columns. -/
def RefersTo (lines : List Line) : Line → Prop
  | .column .. => True
  | .primaryKey names | .unique names => Lists lines names
  | .foreignKey names _ parentNames _ _ => Lists lines names ∧ names.length = parentNames.length

variable {lines : List Line} {line : Line}

theorem Lists.append {names : List String} (h : Lists lines names) (more : List Line) :
    Lists (lines ++ more) names := by
  obtain ⟨nonempty, known⟩ := h
  refine ⟨nonempty, fun name among => ?_⟩
  rw [List.filterMap_append]
  exact List.mem_append_left _ (known name among)

/-- What a line refers to stays there when lines come between. -/
theorem RefersTo.append (h : line.RefersTo lines) (more : List Line) :
    line.RefersTo (lines ++ more) := by
  cases line with
  | column => trivial
  | primaryKey | unique => exact Lists.append h more
  | foreignKey => exact ⟨h.1.append more, h.2⟩

/-- Columns first, and behind them lines that refer to those columns: each line refers to lines before
itself. -/
theorem refersTo_of_append_eq {ds ks before after : List Line}
    (columns : ∀ line ∈ ds, ∀ before, line.RefersTo before) (refers : ∀ line ∈ ks, line.RefersTo ds)
    (split : ds ++ ks = before ++ line :: after) : line.RefersTo before := by
  rcases List.append_eq_append_iff.mp split with ⟨more, rfl, rest⟩ | ⟨behind, rfl, rest⟩
  · have member : line ∈ ks := rest ▸ List.mem_append_right more List.mem_cons_self
    exact (refers line member).append more
  · cases behind with
    | nil =>
      rw [List.nil_append] at rest
      rw [List.append_nil] at refers
      exact refers line (rest ▸ List.mem_cons_self)
    | cons first others =>
      obtain ⟨rfl, -⟩ := List.cons.inj rest
      exact columns line (List.mem_append_right before List.mem_cons_self) before

end Line

namespace TableText

def columnNames (s : TableText) : List String := s.lines.filterMap Line.columnName?

def clauses (s : TableText) : List ColumnClause := s.lines.flatMap Line.clauses

/-- How many clauses give the table a key, those of columns and those of the table. -/
def keyClauses (s : TableText) : Nat := s.clauses.count .primaryKey

/-- The rules of a text with this many key clauses. -/
structure KeyRules (s : TableText) (keys : Nat) : Prop where
  keys : s.keyClauses = keys
  numberings : s.clauses.count .autoincrement ≤ 1
  numbered : ∀ name type clauses, .column name type clauses ∈ s.lines → .autoincrement ∈ clauses →
    type = "INTEGER" ∧ [.primaryKey, .autoincrement] <+: clauses
  refersTo : ∀ before line after, s.lines = before ++ line :: after → line.RefersTo before

end TableText

end Sql

namespace ColumnDefinition

section Clauses

theorem count_clauseIf (holds : Bool) (c e : ColumnClause) :
    (clauseIf holds c).count e = if c = e then holds.toNat else 0 := by
  cases holds with
  | false => simp [clauseIf]
  | true => simp [clauseIf, List.count_singleton]

/-- A clause that nothing follows stands where its flag is set. -/
theorem count_said (d : ColumnDefinition) {c : ColumnClause} (collate : ∀ name, .collate name ≠ c)
    (default : ∀ text quoted, .default text quoted ≠ c) :
    d.said.count c = (if .primaryKey = c then d.primaryKey.toNat else 0) +
      (if .autoincrement = c then d.autoincrement.toNat else 0) +
      (if .unique = c then d.unique.toNat else 0) +
      (if .notNull = c then d.notNull.toNat else 0) := by
  have absent : ∀ {α : Type} (o : Option α) (f : α → ColumnClause), (∀ a, f a ≠ c) →
      (o.map f).toList.count c = 0 := by
    intro α o f other
    cases o with
    | none => rfl
    | some a => simp [other a]
  simp only [said, List.count_append, count_clauseIf, absent _ _ collate,
    absent d.default _ fun clause => default clause.text clause.quoted, Nat.add_zero]

theorem count_primaryKey (d : ColumnDefinition) :
    d.said.count .primaryKey = d.primaryKey.toNat := by
  rw [count_said d (by simp) (by simp)]
  simp

theorem count_autoincrement (d : ColumnDefinition) :
    d.said.count .autoincrement = d.autoincrement.toNat := by
  rw [count_said d (by simp) (by simp)]
  simp

theorem autoincrement_mem_said_iff {d : ColumnDefinition} :
    .autoincrement ∈ d.said ↔ d.autoincrement = true := by
  rw [← List.count_pos_iff, count_autoincrement]
  cases d.autoincrement <;> simp

/-- The clauses of a key that numbers the rows. -/
theorem prefix_said {d : ColumnDefinition} (key : d.primaryKey = true)
    (numbered : d.autoincrement = true) : [.primaryKey, .autoincrement] <+: d.said := by
  rw [said, key, numbered, List.append_assoc, List.append_assoc, List.append_assoc]
  exact List.prefix_append [ColumnClause.primaryKey, .autoincrement] _

end Clauses

end ColumnDefinition

namespace CreateTable

section Columns

variable {single : Bool} {cs : List Column} {ds : List Definition}

theorem columnNames_columns (lines : List.Forall₂ (Defines single) cs ds) :
    (ds.map Definition.read).filterMap Line.columnName? = cs.map (bareName ·.name) := by
  induction lines with
  | nil => rfl
  | cons first _ ih =>
    obtain ⟨d, made, rfl⟩ := first
    obtain ⟨name, -⟩ := ColumnDefinition.key_of_ofColumn made
    rw [List.map_cons, List.map_cons, ← ih, ← name]
    rfl

theorem count_primaryKey_columns (lines : List.Forall₂ (Defines single) cs ds) :
    (ds.flatMap (·.read.clauses)).count .primaryKey =
      (cs.filter fun c => single && c.primaryKey).length := by
  induction lines with
  | nil => rfl
  | @cons c line cs ds first _ ih =>
    obtain ⟨d, made, rfl⟩ := first
    obtain ⟨-, key, -⟩ := ColumnDefinition.key_of_ofColumn made
    have one : (Definition.read (.column d)).clauses.count .primaryKey =
        (single && c.primaryKey).toNat := by
      rw [← key]
      exact d.count_primaryKey
    rw [List.flatMap_cons, List.count_append, ih, one, List.filter_cons]
    cases single && c.primaryKey with
    | true => simp [Nat.add_comm]
    | false => simp

/-- Where only the key numbers its rows, a line that does so defines the key, and an integer. -/
theorem numbersKey_of_mem (lines : List.Forall₂ (Defines single) cs ds)
    (numbered : ∀ c ∈ cs, c.autoincrement = true → (single && c.primaryKey) = true) :
    ∀ d, .column d ∈ ds → d.autoincrement = true → d.primaryKey = true ∧ d.affinity = .integer := by
  intro d member counts
  obtain ⟨c, declared, e, made, same⟩ := exists_column_of_mem lines member
  obtain rfl := Definition.column.inj same
  obtain ⟨-, key, integer⟩ := ColumnDefinition.key_of_ofColumn made
  obtain ⟨flag, affinity⟩ := integer counts
  rw [key]
  exact ⟨numbered c declared flag, affinity⟩

end Columns

/-- Where only keys number their rows, there are at least as many keys. -/
theorem count_autoincrement_le {lines : List Definition}
    (numbersKey : ∀ d, .column d ∈ lines → d.autoincrement = true → d.primaryKey = true) :
    (lines.flatMap (·.read.clauses)).count .autoincrement ≤
      (lines.flatMap (·.read.clauses)).count .primaryKey := by
  induction lines with
  | nil => exact Nat.le_refl 0
  | cons line lines ih =>
    rw [List.flatMap_cons, List.count_append, List.count_append]
    apply Nat.add_le_add
    · cases line with
      | primaryKey | unique | foreignKey => exact Nat.zero_le _
      | column d =>
        change d.said.count .autoincrement ≤ d.said.count .primaryKey
        rw [d.count_autoincrement, d.count_primaryKey]
        cases counts : d.autoincrement with
        | false => exact Nat.zero_le _
        | true =>
          exact Nat.le_of_eq (congrArg Bool.toNat (numbersKey d List.mem_cons_self counts).symm)
    · exact ih fun d member => numbersKey d (List.mem_cons_of_mem line member)

section Constraints

variable {t : Table}

theorem length_flagged_of_hasSingleKey (single : t.hasSingleKey = true) :
    t.flagged.length = 1 := by
  rw [Table.hasSingleKey, Bool.and_eq_true, beq_iff_eq] at single
  exact single.2

theorem columnName?_constraints (t : Table) :
    ((constraints t).map Definition.read).filterMap Line.columnName? = [] := by
  rw [List.filterMap_map, List.filterMap_eq_nil_iff]
  intro line member
  cases line with
  | column d => exact absurd member (column_notMem_constraints t d)
  | primaryKey | unique | foreignKey => rfl

theorem count_primaryKey_constraints (t : Table) :
    ((constraints t).flatMap (·.read.clauses)).count .primaryKey =
      if !t.hasSingleKey && !t.compositeKey.isEmpty then 1 else 0 := by
  have uniques : ColumnClause.primaryKey ∉
      t.uniques.flatMap fun u => (Definition.unique u.columns).read.clauses := by
    simp [Definition.read, Line.clauses]
  have foreignKeys : ColumnClause.primaryKey ∉
      t.foreignKeys.flatMap fun k => (Definition.foreignKey k).read.clauses := by
    simp [Definition.read, Line.clauses]
  rw [constraints, List.flatMap_append, List.flatMap_append, List.flatMap_map, List.flatMap_map,
    List.count_append, List.count_append, List.count_eq_zero.mpr uniques,
    List.count_eq_zero.mpr foreignKeys]
  cases !t.hasSingleKey && !t.compositeKey.isEmpty <;> rfl

theorem clauses_read (s : CreateTable) :
    s.read.clauses = s.definitions.flatMap (·.read.clauses) := by
  rw [TableText.clauses, read, List.flatMap_map]

variable {options : CreateOptions} {s : CreateTable}

theorem columnNames_read (made : ofSchema t options = .ok s) :
    s.read.columnNames = t.columnNames.map bareName := by
  obtain ⟨ds, written, rfl⟩ := exists_columnDefinitions made
  rw [TableText.columnNames, read, List.map_append, List.filterMap_append, columnName?_constraints,
    columnNames_columns (defines_columnDefinitions written), List.append_nil, Table.columnNames,
    List.map_map]
  rfl

/-- One key clause, of a column or of the table, or none. -/
theorem keyClauses_read (made : ofSchema t options = .ok s) :
    s.read.keyClauses = if t.hasSingleKey || !t.compositeKey.isEmpty then 1 else 0 := by
  obtain ⟨ds, written, rfl⟩ := exists_columnDefinitions made
  rw [TableText.keyClauses, clauses_read, List.flatMap_append, List.count_append,
    count_primaryKey_columns (defines_columnDefinitions written), count_primaryKey_constraints]
  cases single : t.hasSingleKey with
  | true =>
    have flagged : (t.columns.filter (·.primaryKey)).length = 1 :=
      length_flagged_of_hasSingleKey single
    simp [flagged]
  | false => simp

theorem keyClauses_read_le (made : ofSchema t options = .ok s) : s.read.keyClauses ≤ 1 := by
  rw [keyClauses_read made]
  split
  · exact Nat.le_refl 1
  · exact Nat.zero_le 1

end Constraints

section Built

variable {d t : Table}

/-- The lines of a table that passed its checks refer to columns in front of them. -/
theorem refersTo_of_validate {ds : List Line} (built : d.validate = .ok t)
    (lines : ds.filterMap Line.columnName? = t.columns.map (bareName ·.name)) :
    ∀ line ∈ constraints t, line.read.RefersTo ds := by
  obtain ⟨key, uniques, foreignKeys⟩ := Table.references_of_validate_eq_ok built
  have declared : ∀ names : List String, names ≠ [] → (∀ name ∈ names, name ∈ t.columnNames) →
      Line.Lists ds (names.map bareName) := by
    intro names nonempty known
    refine ⟨List.map_eq_nil_iff.not.mpr nonempty, List.forall_mem_map.mpr fun name among => ?_⟩
    obtain ⟨c, member, rfl⟩ := List.mem_map.mp (known name among)
    rw [lines]
    exact List.mem_map_of_mem member
  intro line member
  simp only [constraints, List.mem_append, List.mem_map] at member
  rcases member with (member | ⟨u, member, rfl⟩) | ⟨k, member, rfl⟩
  · split at member
    case isTrue composite =>
      obtain rfl := List.mem_singleton.mp member
      rw [Bool.and_eq_true, Bool.not_eq_true', Bool.not_eq_true', List.isEmpty_eq_false_iff]
        at composite
      exact declared t.compositeKey composite.2 key
    case isFalse => cases member
  · obtain ⟨nonempty, known⟩ := uniques u member
    exact declared u.columns nonempty known
  · obtain ⟨nonempty, even, known⟩ := foreignKeys k member
    refine ⟨declared k.columns nonempty known, ?_⟩
    rw [List.length_map, List.length_map, even]

/-- There is a key if and only if one was declared, whether it was settled anew or not. -/
theorem hasKey_iff (built : d.validate = .ok t) :
    (t.hasSingleKey || !t.compositeKey.isEmpty) = true ↔ d.flagged ≠ [] ∨ d.compositeKey ≠ [] := by
  obtain ⟨-, -, -, -, -, -, -, -, rfl⟩ := Table.validate_eq_ok_iff.mp built
  rw [Bool.or_eq_true, Bool.not_eq_true', List.isEmpty_eq_false_iff]
  rcases d.foldKey_cases with ⟨-, several, fold⟩ | ⟨few, fold⟩
  · have flagged : d.flagged ≠ [] := List.ne_nil_of_length_pos (Nat.lt_of_succ_lt several)
    rw [fold]
    exact iff_of_true (Or.inr (by simpa using flagged)) (Or.inl flagged)
  · rw [fold]
    by_cases composite : d.compositeKey = []
    · have single : d.hasSingleKey = true ↔ d.flagged ≠ [] := by
        rw [Table.hasSingleKey, composite, List.isEmpty_nil, Bool.true_and, beq_iff_eq,
          ← List.length_pos_iff]
        have := few composite
        omega
      rw [single]
    · exact iff_of_true (Or.inr composite) (Or.inr composite)

/-- Only the key numbers its rows. -/
theorem numbersKey_of_validate (built : d.validate = .ok t) :
    ∀ c ∈ t.columns, c.autoincrement = true → (t.hasSingleKey && c.primaryKey) = true := by
  have consistent := Table.consistent_of_validate_eq_ok built
  obtain ⟨-, -, -, numbered, -, -, -, -, rfl⟩ := Table.validate_eq_ok_iff.mp built
  rw [Table.checkAutoincrement_eq_ok_iff] at numbered
  intro c member counts
  have flag := numbered c member counts
  rw [Bool.and_eq_true]
  exact ⟨consistent.hasSingleKey_iff.mpr ⟨c, member, flag⟩, flag⟩

variable {options : CreateOptions} {s : CreateTable}

theorem keyClauses_of_validate (built : d.validate = .ok t) (made : ofSchema t options = .ok s) :
    s.read.keyClauses = if d.flagged = [] ∧ d.compositeKey = [] then 0 else 1 := by
  rw [keyClauses_read made]
  by_cases declared : d.flagged = [] ∧ d.compositeKey = []
  · have none := (hasKey_iff built).not.mpr (by simpa using declared)
    rw [if_pos declared, if_neg none]
  · have some := (hasKey_iff built).mpr (by simpa [imp_iff_not_or] using declared)
    rw [if_neg declared, if_pos some]

theorem numbersKey_of_ofSchema (built : d.validate = .ok t) (made : ofSchema t options = .ok s) :
    ∀ e, .column e ∈ s.definitions → e.autoincrement = true →
      e.primaryKey = true ∧ e.affinity = .integer := by
  obtain ⟨ds, written, rfl⟩ := exists_columnDefinitions made
  intro e member
  rw [List.mem_append, or_iff_left (column_notMem_constraints t e)] at member
  exact numbersKey_of_mem (defines_columnDefinitions written) (numbersKey_of_validate built) e member

/-- Each line refers to columns that are defined before it. -/
theorem refersTo_of_ofSchema {before after : List Line} {line : Line} (built : d.validate = .ok t)
    (made : ofSchema t options = .ok s) (split : s.read.lines = before ++ line :: after) :
    line.RefersTo before := by
  obtain ⟨ds, written, rfl⟩ := exists_columnDefinitions made
  have lines := defines_columnDefinitions written
  rw [read, List.map_append] at split
  refine Line.refersTo_of_append_eq (fun line member before => ?_) ?_ split
  · obtain ⟨_, among, rfl⟩ := List.mem_map.mp member
    obtain ⟨c, -, e, -, rfl⟩ := exists_column_of_mem lines among
    trivial
  · exact List.forall_mem_map.mpr (refersTo_of_validate built (columnNames_columns lines))

/-- The statement of a table that was built obeys the rules of keys. -/
theorem keyRules_of_validate (built : d.validate = .ok t) (made : ofSchema t options = .ok s) :
    s.read.KeyRules (if d.flagged = [] ∧ d.compositeKey = [] then 0 else 1) := by
  have numbersKey := numbersKey_of_ofSchema built made
  refine ⟨keyClauses_of_validate built made, ?_, fun name type clauses member mentioned => ?_,
    fun before line after split => refersTo_of_ofSchema built made split⟩
  · have fewer := count_autoincrement_le fun e member counts => (numbersKey e member counts).1
    have few := keyClauses_read_le made
    rw [TableText.keyClauses, clauses_read] at few
    rw [clauses_read]
    exact Nat.le_trans fewer few
  · obtain ⟨line, among, same⟩ := List.mem_map.mp member
    cases line with
    | primaryKey | unique | foreignKey => cases same
    | column e =>
      cases same
      have counts := ColumnDefinition.autoincrement_mem_said_iff.mp mentioned
      obtain ⟨key, integer⟩ := numbersKey e among counts
      refine ⟨?_, ColumnDefinition.prefix_said key counts⟩
      rw [integer]
      rfl

end Built

end CreateTable

namespace Table

/-- The text that creates a table is a statement whose parts can be read, as long as its names hold no
backticks, its collations are words and its defaults do not end early. No description then gives a text
with two key clauses, checked or not. The text for a table that was built defines its columns, in
order. It has one key clause if a column was flagged or a composite key declared, and none otherwise.
At most one of its columns numbers the rows, an integer that is said to be the key right before, and
its constraints list columns that are defined before them. -/
theorem createText_obeys_keyRules :
    (∀ (t : Table) (options : CreateOptions) (text : String), t.IsLegible →
      t.createText options = .ok text → ∃ s, createTable? text = some s ∧ s.keyClauses ≤ 1) ∧
    ∀ (name : String) (steps : List TableStep) (t : Table) (options : CreateOptions)
      (text : String), build name steps = .ok t → t.IsLegible → t.createText options = .ok text →
      ∃ s, createTable? text = some s ∧ s.columnNames = t.columnNames.map bareName ∧
        s.KeyRules (if (described name steps).flagged = [] ∧
          (described name steps).compositeKey = [] then 0 else 1) := by
  constructor
  · intro t options text legible written
    obtain ⟨s, made, read⟩ := createTable?_createText written legible
    exact ⟨s.read, read, CreateTable.keyClauses_read_le made⟩
  · intro name steps t options text built legible written
    obtain ⟨s, made, read⟩ := createTable?_createText written legible
    rw [build, ofSteps_eq_described] at built
    exact ⟨s.read, read, CreateTable.columnNames_read made,
      CreateTable.keyRules_of_validate built made⟩

/-- A numbered key, and a column of which a unique group and a foreign key are made. -/
def loanSteps : List TableStep :=
  [.column { Column.plain "id" ⟨.int .i64, false⟩ with primaryKey := true, autoincrement := true },
    .column { Column.plain "book" ⟨.text, false⟩ with
      collation := .custom "unicode_ci", default := some ⟨"PRIMARY KEY, ", .text⟩ },
    .unique ⟨"once", ["book"]⟩, .foreignKey ⟨["book"], "books", ["isbn"], .noAction, .cascade⟩]

def loanText : String :=
  "CREATE TABLE `loans` (\n\t`id` INTEGER PRIMARY KEY AUTOINCREMENT,\n" ++
    "\t`book` TEXT COLLATE UNICODE_CI NOT NULL DEFAULT \"PRIMARY KEY, \",\n" ++
    "\tUNIQUE(`book`),\n\tFOREIGN KEY(`book`) REFERENCES `books`(`isbn`) ON DELETE CASCADE\n);"

/-- A description that no steps give: the key is flagged and declared. -/
def doubtful : Table :=
  { empty "t" with
    columns := [{ Column.plain "a" ⟨.text, false⟩ with primaryKey := true }]
    compositeKey := ["a"] }

set_option maxRecDepth 2048 in
theorem createText_obeys_keyRules_loans :
    (∃ t s, build "loans" loanSteps = .ok t ∧ t.IsLegible ∧ t.createText .none = .ok loanText ∧
      createTable? loanText = some s ∧ s.columnNames = ["id", "book"] ∧ s.KeyRules 1) ∧
    ∃ text s, doubtful.IsLegible ∧ doubtful.createText .none = .ok text ∧
      text = "CREATE TABLE `t` (\n\t`a` TEXT NOT NULL,\n\tPRIMARY KEY(`a`)\n);" ∧
      createTable? text = some s ∧ s.keyClauses ≤ 1 := by
  have built : build "loans" loanSteps = .ok (described "loans" loanSteps) := by rfl
  have written : (described "loans" loanSteps).createText .none = .ok loanText := by rfl
  have legible : (described "loans" loanSteps).IsLegible := by decide
  have unchecked : doubtful.createText .none =
      .ok "CREATE TABLE `t` (\n\t`a` TEXT NOT NULL,\n\tPRIMARY KEY(`a`)\n);" := by rfl
  have plain : doubtful.IsLegible := by decide
  constructor
  · obtain ⟨s, read, names, rules⟩ :=
      createText_obeys_keyRules.2 _ _ _ _ _ built legible written
    have flagged : (described "loans" loanSteps).flagged ≠ [] := List.cons_ne_nil _ _
    rw [if_neg fun declared => flagged declared.1] at rules
    have same : (described "loans" loanSteps).columnNames.map bareName = ["id", "book"] := by decide
    exact ⟨_, s, built, legible, written, read, names.trans same, rules⟩
  · obtain ⟨s, read, few⟩ := createText_obeys_keyRules.1 _ _ _ plain unchecked
    exact ⟨_, s, plain, unchecked, rfl, read, few⟩

/-- A collation, a default and a name that bring a key clause of their own. The first comes to a key
that is declared, the others to tables without one. -/
theorem exists_built_undeclared_key :
    (∃ t text, build "t" [.column { Column.plain "id" ⟨.int .i64, false⟩ with primaryKey := true },
        .column { Column.plain "a" ⟨.text, false⟩ with
          collation := .custom "nocase primary key" }] = .ok t ∧
      t.createText .none = .ok text ∧ (createTable? text).map (·.keyClauses) = some 2) ∧
    (∃ t text, build "t" [.column { Column.plain "a" ⟨.text, false⟩ with
        default := some ⟨"x\" PRIMARY KEY DEFAULT \"y", .text⟩ }] = .ok t ∧
      t.createText .none = .ok text ∧ (createTable? text).map (·.keyClauses) = some 1) ∧
    ∃ t text, build "t" [.column (Column.plain "a` TEXT PRIMARY KEY, `b" ⟨.text, false⟩)] = .ok t ∧
      t.createText .none = .ok text ∧ (createTable? text).map (·.keyClauses) = some 1 := by
  refine ⟨⟨_, _, by rfl, by rfl, ?_⟩, ⟨_, _, by rfl, by rfl, ?_⟩, ⟨_, _, by rfl, by rfl, ?_⟩⟩
  all_goals decide +kernel

end Table

end TypedSql
