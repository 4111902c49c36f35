import TypedSql.Proofs.Definition.Lines

/-! Row numbers in a statement that creates a table. A table without row numbers has nothing to number
its rows by, and SQL refuses a column of such a table that does. The checks of a description look at
the two separately, so a table that was built can ask for both, and its statement then says both. -/
namespace TypedSql

open Text

/-- The column is to number the rows of its table and has a type that can. -/
def Column.NumbersRows (c : Column) : Prop :=
  c.autoincrement = true ∧ c.category.affinity? = some .integer

instance (c : Column) : Decidable c.NumbersRows := inferInstanceAs (Decidable (_ ∧ _))

namespace ColumnDefinition

/-- A clause that is written when it holds. -/
def wordIf (holds : Bool) (word : String) : List String := if holds then [word] else []

/-- A clause that is written when there is something to write behind its word. -/
def wordWith (word : String) (argument : Option String) : List String :=
  (argument.map (word ++ ·)).toList

/-- What is said about a column behind its name, clause by clause. -/
def words (d : ColumnDefinition) : List String :=
  d.affinity.keyword :: (wordIf d.primaryKey "PRIMARY KEY" ++ wordIf d.autoincrement "AUTOINCREMENT" ++
    wordIf d.unique "UNIQUE" ++ wordWith "COLLATE " d.collation ++ wordIf d.notNull "NOT NULL" ++
    wordWith "DEFAULT " (d.default.map (·.render)))

/-- A clause with the blank in front of it. -/
def spaced (word : String) : List Char := ' ' :: word.toList

section Clauses

variable (holds : Bool) (argument : Option String) (word : String)

theorem flatMap_wordIf (text : String) (same : spaced word = text.toList) :
    (wordIf holds word).flatMap spaced = if holds then text.toList else [] := by
  cases holds with
  | false => rfl
  | true => rw [wordIf, if_pos rfl, if_pos rfl, List.flatMap_singleton, same]

theorem flatMap_wordWith (text : String) (same : spaced word = text.toList) :
    (wordWith word argument).flatMap spaced = argument.elim [] (text.toList ++ ·.toList) := by
  cases argument with
  | none => rfl
  | some a =>
    rw [wordWith, Option.map_some, Option.toList_some, List.flatMap_singleton, Option.elim_some,
      ← same, spaced, spaced, String.toList_append, List.cons_append]

theorem mem_wordIf_iff {other : String} : other ∈ wordIf holds word ↔ holds = true ∧ other = word := by
  cases holds <;> simp [wordIf]

theorem notMem_wordWith {other : String} (apart : ¬word.toList <+: other.toList) :
    other ∉ wordWith word argument := by
  intro member
  obtain ⟨a, -, same⟩ := Option.map_eq_some_iff.mp (Option.mem_toList.mp member)
  apply apart
  rw [← same, String.toList_append]
  exact List.prefix_append _ _

end Clauses

/-- The text of a definition is its name and its words with a blank between each two. -/
theorem render_eq_words (d : ColumnDefinition) :
    d.render = String.intercalate " " (identifier d.name :: d.words) := by
  apply String.toList_inj.mp
  have joined : (String.intercalate " " (identifier d.name :: d.words)).toList =
      (identifier d.name).toList ++ d.words.flatMap spaced := by
    rw [String.toList_intercalate, List.map_cons, intercalate_cons, List.flatMap_map]
    rfl
  have default : (d.default.map (·.render)).elim [] (" DEFAULT ".toList ++ ·.toList) =
      d.default.elim [] (" DEFAULT ".toList ++ ·.render.toList) := by
    cases d.default <;> rfl
  rw [toList_render, joined]
  simp only [words, clauses, spaced, default, List.flatMap_cons, List.flatMap_append,
    flatMap_wordIf _ "PRIMARY KEY" " PRIMARY KEY" rfl,
    flatMap_wordIf _ "AUTOINCREMENT" " AUTOINCREMENT" rfl, flatMap_wordIf _ "UNIQUE" " UNIQUE" rfl,
    flatMap_wordIf _ "NOT NULL" " NOT NULL" rfl, flatMap_wordWith _ "COLLATE " " COLLATE " rfl,
    flatMap_wordWith _ "DEFAULT " " DEFAULT " rfl, List.append_assoc, List.append_nil,
    List.cons_append]

theorem autoincrement_mem_words_iff {d : ColumnDefinition} :
    "AUTOINCREMENT" ∈ d.words ↔ d.autoincrement = true := by
  have type : "AUTOINCREMENT" ≠ d.affinity.keyword := by
    cases d.affinity <;> decide
  have collate : "AUTOINCREMENT" ∉ wordWith "COLLATE " d.collation :=
    notMem_wordWith _ _ (by decide)
  have default : "AUTOINCREMENT" ∉ wordWith "DEFAULT " (d.default.map (·.render)) :=
    notMem_wordWith _ _ (by decide)
  simp [words, type, mem_wordIf_iff, collate, default]

end ColumnDefinition

theorem ColumnDefinition.autoincrement_iff_of_ofColumn {c : Column} {isKey : Bool}
    {d : ColumnDefinition} (h : ofColumn c isKey = .ok d) :
    d.autoincrement = true ↔ c.NumbersRows := by
  have same : d.autoincrement = (c.autoincrement && c.category.affinity? == some .integer) :=
    congrArg ColumnForm.autoincrement (ofColumn_eq_ok h).1
  rw [same, Bool.and_eq_true, beq_iff_eq, Column.NumbersRows]

namespace CreateTable

/-- A column of the statement numbers the rows. -/
def NumbersRows (s : CreateTable) : Prop :=
  ∃ d, .column d ∈ s.definitions ∧ "AUTOINCREMENT" ∈ d.words

theorem exists_numbered_iff {single : Bool} {cs : List Column} {ds : List Definition}
    (lines : List.Forall₂ (Defines single) cs ds) :
    (∃ d, .column d ∈ ds ∧ d.autoincrement = true) ↔ ∃ c ∈ cs, c.NumbersRows := by
  induction lines with
  | nil => simp
  | cons first _ ih =>
    obtain ⟨d, made, rfl⟩ := first
    simp only [List.mem_cons, Definition.column.injEq, or_and_right, exists_or, exists_eq_left, ih,
      ColumnDefinition.autoincrement_iff_of_ofColumn made]

variable {t : Table} {options : CreateOptions} {s : CreateTable}

theorem numbersRows_iff (made : ofSchema t options = .ok s) :
    s.NumbersRows ↔ ∃ c ∈ t.columns, c.NumbersRows := by
  obtain ⟨ds, written, rfl⟩ := exists_columnDefinitions made
  rw [← exists_numbered_iff (defines_columnDefinitions written)]
  simp only [NumbersRows, ColumnDefinition.autoincrement_mem_words_iff, List.mem_append,
    column_notMem_constraints, or_false]

end CreateTable

namespace Table

/-- Settling the key leaves row numbers as they are. -/
theorem exists_numbersRows_foldKey {t : Table} :
    (∃ c ∈ t.foldKey.columns, c.NumbersRows) ↔ ∃ c ∈ t.columns, c.NumbersRows := by
  rcases t.foldKey_cases with ⟨-, -, fold⟩ | ⟨-, fold⟩
  · rw [fold]
    simp only [List.mem_map, exists_exists_and_eq_and]
    rfl
  · rw [fold]

theorem mem_columns_described {name : String} {steps : List TableStep} {c : Column} :
    c ∈ (described name steps).columns ↔ .column c ∈ steps := by
  have only : ∀ step, TableStep.column? step = some c ↔ step = .column c := by
    intro step
    cases step <;> simp [TableStep.column?]
  simp only [described, List.mem_filterMap, only, exists_eq_right]

/-- The statement of a table that was built leaves the row number out if and only if a step says so,
and a column of it numbers the rows if and only if a column of the steps can and is to. Nothing keeps
a description from asking for both, and the statement then says both. -/
theorem createText_numbers_without_rowid_iff {name : String} {steps : List TableStep} {t : Table}
    {options : CreateOptions} {text : String} (built : build name steps = .ok t)
    (written : t.createText options = .ok text) :
    ∃ s, CreateTable.ofSchema t options = .ok s ∧ s.render = text ∧
      (∃ opening, text = opening ++ (if s.withoutRowid then " WITHOUT ROWID" else "") ++
        (if options.strict then " STRICT" else "") ++ ";") ∧
      (∀ d, .column d ∈ s.definitions →
        d.render = String.intercalate " " (identifier d.name :: d.words)) ∧
      (s.withoutRowid = true ↔ .withoutRowid ∈ steps) ∧
      (s.NumbersRows ↔ ∃ c, .column c ∈ steps ∧ c.NumbersRows) := by
  rw [build, ofSteps_eq_described] at built
  obtain ⟨-, -, -, -, -, -, -, -, rfl⟩ := validate_eq_ok_iff.mp built
  obtain ⟨s, made, rfl⟩ := createText_eq_ok_iff.mp written
  have numbers := CreateTable.numbersRows_iff made
  rw [exists_numbersRows_foldKey] at numbers
  simp only [mem_columns_described] at numbers
  obtain ⟨ds, -, rfl⟩ := CreateTable.exists_columnDefinitions made
  refine ⟨_, made, rfl, ⟨_, rfl⟩, fun d _ => d.render_eq_words, ?_, numbers⟩
  rw [withoutRowid_foldKey, described, List.contains_iff_mem]

/-- Codes that number nothing, since they are texts. -/
def codeSteps : List TableStep :=
  [.column { Column.plain "code" ⟨.text, false⟩ with primaryKey := true, autoincrement := true },
    .withoutRowid]

theorem createText_numbers_without_rowid_iff_codes :
    ∃ t s, build "codes" codeSteps = .ok t ∧
      t.createText .none = .ok "CREATE TABLE `codes` (\n\t`code` TEXT PRIMARY KEY\n) WITHOUT ROWID;" ∧
      CreateTable.ofSchema t .none = .ok s ∧ s.withoutRowid = true ∧ ¬s.NumbersRows := by
  have built : build "codes" codeSteps = .ok (described "codes" codeSteps) := by rfl
  have written : (described "codes" codeSteps).createText .none =
      .ok "CREATE TABLE `codes` (\n\t`code` TEXT PRIMARY KEY\n) WITHOUT ROWID;" := by rfl
  obtain ⟨s, made, -, -, -, without, numbers⟩ := createText_numbers_without_rowid_iff built written
  refine ⟨_, s, built, written, made, without.mpr (by decide), ?_⟩
  rw [numbers]
  rintro ⟨c, member, numbered⟩
  obtain rfl : c = _ := by simpa [codeSteps] using member
  exact absurd numbered.2 (by decide)

/-- A numbered key in a table without row numbers, accepted and written. -/
def numberedSteps : List TableStep :=
  [.column { Column.plain "id" ⟨.int .i64, false⟩ with primaryKey := true, autoincrement := true },
    .withoutRowid]

theorem exists_built_numbered_without_rowid :
    ∃ t s, build "t" numberedSteps = .ok t ∧ CreateTable.ofSchema t .none = .ok s ∧
      s.withoutRowid = true ∧ s.NumbersRows ∧
      s.render = "CREATE TABLE `t` (\n\t`id` INTEGER PRIMARY KEY AUTOINCREMENT\n) WITHOUT ROWID;" := by
  refine ⟨described "t" numberedSteps, _, by rfl, by rfl, rfl, ⟨_, List.mem_cons_self, ?_⟩, by rfl⟩
  decide

end Table

end TypedSql
