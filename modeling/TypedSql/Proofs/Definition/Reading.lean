import TypedSql.Proofs.Definition.Lines
import TypedSql.Proofs.Sql.TableText

/-! Statements that create a table, read back from their text. What is written as it stands has to be
of a kind that is read as what it is: a name without backticks inside, a collation that is one word, a
default in quotes without double quotes inside, and any other default one word or number. The whole
text is then read as the lines it was made of. -/
namespace TypedSql

open Text Sql

def DefaultClause.IsLegible (d : DefaultClause) : Prop :=
  if d.quoted then '"' ∉ d.text.toList else IsRun d.text

instance (d : DefaultClause) : Decidable d.IsLegible :=
  inferInstanceAs (Decidable (if d.quoted then '"' ∉ d.text.toList else IsRun d.text))

/-- The texts of a column are read as what they are. For the collation this concerns custom names, in
upper case. -/
structure Column.IsLegible (c : Column) : Prop where
  name : IsPlainName c.name
  collation : ∀ word ∈ c.collation.keyword?, IsWord word
  default : ∀ d ∈ c.default, d.form.IsLegible

instance (c : Column) : Decidable c.IsLegible :=
  decidable_of_iff (IsPlainName c.name ∧ (∀ word ∈ c.collation.keyword?, IsWord word) ∧
      ∀ d ∈ c.default, d.form.IsLegible)
    ⟨fun ⟨name, collation, default⟩ => ⟨name, collation, default⟩,
      fun ⟨name, collation, default⟩ => ⟨name, collation, default⟩⟩

instance (k : ForeignKey) : Decidable k.IsPlain :=
  decidable_of_iff ((∀ name ∈ k.columns, IsPlainName name) ∧ IsPlainName k.parent ∧
      ∀ name ∈ k.parentColumns, IsPlainName name)
    ⟨fun ⟨columns, parent, parentColumns⟩ => ⟨columns, parent, parentColumns⟩,
      fun ⟨columns, parent, parentColumns⟩ => ⟨columns, parent, parentColumns⟩⟩

/-- The texts of a description are read as what they are. -/
structure Table.IsLegible (t : Table) : Prop where
  name : IsPlainName t.name
  columns : ∀ c ∈ t.columns, c.IsLegible
  compositeKey : ∀ name ∈ t.compositeKey, IsPlainName name
  uniques : ∀ u ∈ t.uniques, ∀ name ∈ u.columns, IsPlainName name
  foreignKeys : ∀ k ∈ t.foreignKeys, k.IsPlain

instance (t : Table) : Decidable t.IsLegible :=
  decidable_of_iff (IsPlainName t.name ∧ (∀ c ∈ t.columns, c.IsLegible) ∧
      (∀ name ∈ t.compositeKey, IsPlainName name) ∧
      (∀ u ∈ t.uniques, ∀ name ∈ u.columns, IsPlainName name) ∧ ∀ k ∈ t.foreignKeys, k.IsPlain)
    ⟨fun ⟨name, columns, key, uniques, foreignKeys⟩ => ⟨name, columns, key, uniques, foreignKeys⟩,
      fun ⟨name, columns, key, uniques, foreignKeys⟩ => ⟨name, columns, key, uniques, foreignKeys⟩⟩

namespace ColumnDefinition

structure IsLegible (d : ColumnDefinition) : Prop where
  name : IsPlainName d.name
  collation : ∀ word ∈ d.collation, IsWord word
  default : ∀ clause ∈ d.default, clause.IsLegible

/-- A clause that is written when it holds. -/
def clauseIf (holds : Bool) (c : ColumnClause) : List ColumnClause := if holds then [c] else []

/-- The clauses behind the type of a column, as they are read. -/
def said (d : ColumnDefinition) : List ColumnClause :=
  clauseIf d.primaryKey .primaryKey ++ clauseIf d.autoincrement .autoincrement ++
    clauseIf d.unique .unique ++ (d.collation.map .collate).toList ++ clauseIf d.notNull .notNull ++
    (d.default.map fun clause => .default clause.text clause.quoted).toList

end ColumnDefinition

namespace Definition

def read : Definition → Line
  | .column d => .column (bareName d.name) d.affinity.keyword d.said
  | .primaryKey columns => .primaryKey (columns.map bareName)
  | .unique columns => .unique (columns.map bareName)
  | .foreignKey k =>
    .foreignKey (k.columns.map bareName) (bareName k.parent) (k.parentColumns.map bareName)
      k.onUpdate.given? k.onDelete.given?

def IsLegible : Definition → Prop
  | .column d => d.IsLegible
  | .primaryKey columns => ∀ name ∈ columns, IsPlainName name
  | .unique columns => ∀ name ∈ columns, IsPlainName name
  | .foreignKey k => k.IsPlain

end Definition

namespace CreateTable

structure IsLegible (s : CreateTable) : Prop where
  name : IsPlainName s.name
  definitions : ∀ d ∈ s.definitions, d.IsLegible

def openingWords (s : CreateTable) : List String :=
  "CREATE" :: ((if s.options.temporary then ["TEMP"] else []) ++
    "TABLE" :: (if s.options.ifNotExists then ["IF", "NOT", "EXISTS"] else []))

def optionWords (s : CreateTable) : List String :=
  (if s.withoutRowid then ["WITHOUT", "ROWID"] else []) ++
    (if s.options.strict then ["STRICT"] else [])

/-- The statement as it is read. -/
def read (s : CreateTable) : TableText where
  opening := s.openingWords
  name := bareName s.name
  lines := s.definitions.map Definition.read
  options := s.optionWords

end CreateTable

section Names

/-- Words with a blank before each. -/
def spacedWords (ws : List String) : List Char := ws.flatMap fun w => ' ' :: w.toList

theorem bordered_spacedWords (ws : List String) : Bordered (spacedWords ws) :=
  .flatMap fun _ _ => .cons rfl

theorem spells_spaced (text : String) (ws : List String) (each : ∀ w ∈ ws, IsWord w)
    (same : text.toList = spacedWords ws) : Spells text.toList (ws.map .word) := by
  rw [same]
  exact .words each

/-- The blank before the first word may be missing. -/
theorem spells_words (text : String) (ws : List String) (each : ∀ w ∈ ws, IsWord w)
    (same : ' ' :: text.toList = spacedWords ws) : Spells text.toList (ws.map .word) := by
  rw [← Spells.blank_iff (c := ' ') rfl, same]
  exact .words each

/-- A word between blanks, in front of something else. -/
theorem spells_behind {cs : List Char} {ls : List Lexeme} (text word : String) (plain : IsWord word)
    (same : text.toList = ' ' :: (word.toList ++ [' '])) (h : Spells cs ls) :
    Spells (text.toList ++ cs) (.word word :: ls) ∧ Bordered (text.toList ++ cs) := by
  rw [same, List.cons_append, List.append_assoc, List.singleton_append]
  exact ⟨((Spells.word plain).append h.blank (.cons rfl)).blank, .cons rfl⟩

theorem spells_identifier {name : String} (plain : IsPlainName name) :
    Spells (identifier name).toList [.name (bareName name)] := by
  rw [toList_identifier]
  exact .name plain

theorem spells_columnList {names : List String} (plain : ∀ name ∈ names, IsPlainName name) :
    Spells (columnList names) (nameList (names.map bareName)) := by
  have inner : Spells (identifierList names).toList
      ([Lexeme.comma].intercalate (names.map fun name => [.name (bareName name)])) := by
    rw [identifierList, String.toList_intercalate, List.map_map]
    exact .listed rfl fun name member => spells_identifier (plain name member)
  have closing : Spells [')'] [.closing] := .sign (fun _ => rfl) .nil
  rw [nameList, parenthesized, List.map_map]
  exact .sign (fun _ => rfl) (inner.append closing (.cons rfl))

theorem bordered_columnList (names : List String) : Bordered (columnList names) := .cons rfl

end Names

namespace ColumnDefinition

/-- A clause with the blank in front of it. -/
def clauseText : ColumnClause → String
  | .primaryKey => " PRIMARY KEY"
  | .autoincrement => " AUTOINCREMENT"
  | .unique => " UNIQUE"
  | .collate name => " COLLATE " ++ name
  | .notNull => " NOT NULL"
  | .default text quoted => " DEFAULT " ++ DefaultClause.render ⟨text, quoted⟩

def IsLegibleClause : ColumnClause → Prop
  | .collate name => IsWord name
  | .default text quoted => DefaultClause.IsLegible ⟨text, quoted⟩
  | .primaryKey | .autoincrement | .unique | .notNull => True

theorem bordered_clauseText (c : ColumnClause) : Bordered (clauseText c).toList := by
  cases c <;> simp [clauseText, Bordered, isBorder]

theorem spells_default {d : DefaultClause} (legible : d.IsLegible) :
    Spells d.render.toList [if d.quoted then .quoted d.text else .ofRun d.text] := by
  obtain ⟨text, quoted⟩ := d
  cases quoted with
  | true =>
    have delimited :
        (DefaultClause.render ⟨text, true⟩).toList = '"' :: (text.toList ++ ['"']) := by
      simp [DefaultClause.render]
    rw [delimited]
    exact .quoted legible
  | false => exact .run legible

theorem spells_clauseText {c : ColumnClause} (legible : IsLegibleClause c) :
    Spells (clauseText c).toList c.lexemes := by
  cases c with
  | primaryKey =>
    exact spells_spaced " PRIMARY KEY" ["PRIMARY", "KEY"] (by decide) (by simp [spacedWords])
  | autoincrement =>
    exact spells_spaced " AUTOINCREMENT" ["AUTOINCREMENT"] (by decide) (by simp [spacedWords])
  | unique => exact spells_spaced " UNIQUE" ["UNIQUE"] (by decide) (by simp [spacedWords])
  | notNull => exact spells_spaced " NOT NULL" ["NOT", "NULL"] (by decide) (by simp [spacedWords])
  | collate name =>
    rw [clauseText, String.toList_append]
    exact (spells_behind " COLLATE " "COLLATE" (by decide) (by simp) (.word legible)).1
  | default text quoted =>
    rw [clauseText, String.toList_append]
    exact (spells_behind " DEFAULT " "DEFAULT" (by decide) (by simp) (spells_default legible)).1

theorem flatMap_clauseIf (holds : Bool) (c : ColumnClause) (text : String)
    (same : clauseText c = text) :
    ((clauseIf holds c).flatMap fun c => (clauseText c).toList) =
      if holds then text.toList else [] := by
  subst same
  cases holds
  · rfl
  · exact List.flatMap_singleton _ c

theorem clauses_eq_flatMap (d : ColumnDefinition) :
    d.clauses = d.said.flatMap fun c => (clauseText c).toList := by
  have collation : ((d.collation.map .collate).toList.flatMap fun c => (clauseText c).toList) =
      d.collation.elim [] (" COLLATE ".toList ++ ·.toList) := by
    cases d.collation <;> simp [clauseText]
  have default : ((d.default.map fun clause => .default clause.text clause.quoted).toList.flatMap
      fun c => (clauseText c).toList) =
        d.default.elim [] (" DEFAULT ".toList ++ ·.render.toList) := by
    cases d.default <;> simp [clauseText]
  simp only [clauses, said, List.flatMap_append, collation, default, List.append_assoc,
    List.append_nil, flatMap_clauseIf _ .primaryKey " PRIMARY KEY" rfl,
    flatMap_clauseIf _ .autoincrement " AUTOINCREMENT" rfl, flatMap_clauseIf _ .unique " UNIQUE" rfl,
    flatMap_clauseIf _ .notNull " NOT NULL" rfl]

theorem isLegibleClause_of_mem {d : ColumnDefinition} (legible : d.IsLegible) :
    ∀ c ∈ d.said, IsLegibleClause c := by
  have flag : ∀ {holds : Bool} {c : ColumnClause}, IsLegibleClause c →
      ∀ e ∈ clauseIf holds c, IsLegibleClause e := by
    intro holds c trivially e member
    cases holds with
    | false => cases member
    | true =>
      obtain rfl := List.mem_singleton.mp member
      exact trivially
  intro c member
  simp only [said, List.mem_append, Option.mem_toList, Option.map_eq_some_iff] at member
  rcases member with ((((member | member) | member) | ⟨name, given, rfl⟩) | member) |
    ⟨clause, given, rfl⟩
  · exact flag (c := .primaryKey) trivial c member
  · exact flag (c := .autoincrement) trivial c member
  · exact flag (c := .unique) trivial c member
  · exact legible.collation name given
  · exact flag (c := .notNull) trivial c member
  · exact legible.default clause given

/-- The definition of a column is read as its name, its type and its clauses. -/
theorem spells_render {d : ColumnDefinition} (legible : d.IsLegible) :
    Spells d.render.toList (Definition.read (.column d)).lexemes := by
  have type : IsWord d.affinity.keyword := by
    cases d.affinity <;> decide
  have clauses : Spells d.clauses (d.said.flatMap ColumnClause.lexemes) := by
    rw [clauses_eq_flatMap]
    exact .flatMap (fun c member => spells_clauseText (isLegibleClause_of_mem legible c member))
      fun c _ => bordered_clauseText c
  have border : Bordered d.clauses := by
    rw [clauses_eq_flatMap]
    exact .flatMap fun c _ => bordered_clauseText c
  rw [toList_render]
  exact (spells_identifier legible.name).append ((Spells.word type).append clauses border).blank
    (.cons rfl)

end ColumnDefinition

namespace Definition

theorem spells_action (event : String) (word : IsWord event) (a : ReferentialAction) :
    Spells (actionClause event a).toList (reactionLexemes event a.given?) ∧
      Bordered (actionClause event a).toList := by
  have words : ∀ w ∈ "ON" :: event :: reactionWords a, IsWord w := by
    have known : ∀ w ∈ reactionWords a, IsWord w := by
      cases a <;> decide
    exact List.forall_mem_cons.mpr ⟨by decide, List.forall_mem_cons.mpr ⟨word, known⟩⟩
  have keyword : ' ' :: a.keyword.toList = spacedWords (reactionWords a) := by
    cases a <;> simp [ReferentialAction.keyword, reactionWords, spacedWords]
  rw [toList_actionClause]
  cases given : a.given? with
  | none => exact ⟨.nil, .nil⟩
  | some b =>
    obtain rfl : b = a := by
      rw [ReferentialAction.given?] at given
      split at given
      · cases given
      · exact (Option.some.inj given).symm
    have text : (" ON " ++ event ++ " ").toList ++ b.keyword.toList =
        spacedWords ("ON" :: event :: reactionWords b) := by
      have front : spacedWords ("ON" :: event :: reactionWords b) =
          ' ' :: "ON".toList ++ (' ' :: event.toList ++ spacedWords (reactionWords b)) := by
        simp [spacedWords]
      rw [front, ← keyword]
      simp
    rw [Option.elim_some, text]
    exact ⟨.words words, bordered_spacedWords _⟩

theorem text_eq (k : ForeignKey) :
    k.text = columnList k.columns ++ (" REFERENCES ".toList ++ ((identifier k.parent).toList ++
      (columnList k.parentColumns ++ ((actionClause "UPDATE" k.onUpdate).toList ++
        (actionClause "DELETE" k.onDelete).toList)))) := by
  simp [ForeignKey.text, toList_actionClause]

theorem spells_foreignKey {k : ForeignKey} (plain : k.IsPlain) :
    Spells k.text (nameList (k.columns.map bareName) ++ .word "REFERENCES" ::
      .name (bareName k.parent) :: (nameList (k.parentColumns.map bareName) ++
        (reactionLexemes "UPDATE" k.onUpdate.given? ++
          reactionLexemes "DELETE" k.onDelete.given?))) := by
  obtain ⟨updated, before⟩ := spells_action "UPDATE" (by decide) k.onUpdate
  obtain ⟨deleted, between⟩ := spells_action "DELETE" (by decide) k.onDelete
  have actions := updated.append deleted between
  have parent := (spells_identifier plain.parent).append
    ((spells_columnList plain.parentColumns).append actions (before.append between)) (.cons rfl)
  obtain ⟨references, border⟩ :=
    spells_behind " REFERENCES " "REFERENCES" (by decide) (by simp) parent
  rw [text_eq]
  exact (spells_columnList plain.columns).append references border

/-- A line is read as what it says. -/
theorem spells_render {d : Definition} (legible : d.IsLegible) :
    Spells d.render.toList d.read.lexemes := by
  cases d with
  | column d => exact ColumnDefinition.spells_render legible
  | primaryKey columns =>
    rw [toList_render_primaryKey]
    exact (spells_words "PRIMARY KEY" ["PRIMARY", "KEY"] (by decide) (by simp [spacedWords])).append
      (spells_columnList legible) (bordered_columnList columns)
  | unique columns =>
    rw [toList_render_unique]
    exact (Spells.word (by decide)).append (spells_columnList legible) (bordered_columnList columns)
  | foreignKey k =>
    rw [toList_render_foreignKey]
    exact (spells_words "FOREIGN KEY" ["FOREIGN", "KEY"] (by decide) (by simp [spacedWords])).append
      (spells_foreignKey legible) (bordered_columnList k.columns)

end Definition

namespace CreateTable

variable {s : CreateTable}

theorem isWord_of_mem_openings : ∀ ws ∈ openings, ∀ w ∈ ws, IsWord w := by decide

theorem isWord_of_mem_tableOptions : ∀ ws ∈ tableOptions, ∀ w ∈ ws, IsWord w := by decide

theorem openingWords_mem (s : CreateTable) : s.openingWords ∈ openings := by
  rw [openingWords]
  cases s.options.temporary <;> cases s.options.ifNotExists <;> decide

theorem optionWords_mem (s : CreateTable) : s.optionWords ∈ tableOptions := by
  rw [optionWords]
  cases s.withoutRowid <;> cases s.options.strict <;> decide

theorem suffix_eq_spacedWords (s : CreateTable) : s.suffix = spacedWords s.optionWords := by
  rw [CreateTable.suffix, optionWords]
  cases s.withoutRowid <;> cases s.options.strict <;> simp [spacedWords]

theorem blank_render (s : CreateTable) :
    ' ' :: s.render.toList = spacedWords s.openingWords ++ ' ' :: s.body := by
  rw [toList_render, openingWords]
  cases s.options.temporary <;> cases s.options.ifNotExists <;> simp [spacedWords]

theorem spells_lines (legible : s.IsLegible) : Spells s.lines
    ([Lexeme.comma].intercalate ((s.definitions.map Definition.read).map Line.lexemes)) := by
  rw [List.map_map]
  exact .listed rfl fun d member =>
    (Spells.blank_iff rfl).mpr (Definition.spells_render (legible.definitions d member))

/-- The end of a statement, from the words behind its lines. -/
theorem spells_suffix (s : CreateTable) :
    Spells (s.suffix ++ [';']) (s.optionWords.map .word ++ [.semicolon]) := by
  have words : Spells s.suffix (s.optionWords.map .word) := by
    rw [suffix_eq_spacedWords]
    exact .words (isWord_of_mem_tableOptions _ s.optionWords_mem)
  have semicolon : Spells [';'] [.semicolon] := .sign (fun _ => rfl) .nil
  exact words.append semicolon (.cons rfl)

/-- A statement from its name on. -/
theorem spells_body (legible : s.IsLegible) :
    Spells s.body (.name (bareName s.name) ::
      (parenthesized ((s.definitions.map Definition.read).map Line.lexemes) ++
        (s.optionWords.map .word ++ [.semicolon]))) := by
  have closed : Spells ('\n' :: ')' :: (s.suffix ++ [';']))
      (.closing :: (s.optionWords.map .word ++ [.semicolon])) :=
    (Spells.blank_iff rfl).mpr (.sign (fun _ => rfl) s.spells_suffix)
  have inner := (Spells.blank_iff (c := '\n') rfl).mpr
    ((spells_lines legible).append closed (.cons rfl))
  have opened : Spells (' ' :: '(' :: '\n' :: (s.lines ++ '\n' :: ')' :: (s.suffix ++ [';'])))
      (parenthesized ((s.definitions.map Definition.read).map Line.lexemes) ++
        (s.optionWords.map .word ++ [.semicolon])) := by
    rw [parenthesized, List.cons_append, List.append_assoc, List.singleton_append]
    exact (Spells.sign (fun _ => rfl) inner).blank
  have text : s.body = (identifier s.name).toList ++
      ' ' :: '(' :: '\n' :: (s.lines ++ '\n' :: ')' :: (s.suffix ++ [';'])) := by
    simp [body]
  rw [text]
  exact (spells_identifier legible.name).append opened (.cons rfl)

theorem spells_render (legible : s.IsLegible) : Spells s.render.toList s.read.lexemes := by
  have words := Spells.words (isWord_of_mem_openings _ s.openingWords_mem)
  rw [← Spells.blank_iff (c := ' ') rfl, blank_render]
  exact words.append (spells_body legible).blank (.cons rfl)

/-- The text of a statement is read as the statement. -/
theorem createTable?_render (legible : s.IsLegible) : createTable? s.render = some s.read :=
  createTable?_eq (spells_render legible).lexemes?_eq s.openingWords_mem s.optionWords_mem

theorem isLegible_of_ofColumn {c : Column} {isKey : Bool} {d : ColumnDefinition}
    (made : ColumnDefinition.ofColumn c isKey = .ok d) (legible : c.IsLegible) : d.IsLegible := by
  have form := (ColumnDefinition.ofColumn_eq_ok made).1
  have name : bareName d.name = bareName c.name := congrArg ColumnForm.name form
  have collation : d.collation =
      if c.category.affinity? = some .text then c.collation.keyword? else none :=
    congrArg ColumnForm.collation form
  have default : d.default = c.default.map DefaultValue.form := congrArg ColumnForm.default form
  refine ⟨?_, fun word given => ?_, fun clause given => ?_⟩
  · rw [IsPlainName, name]
    exact legible.name
  · rw [collation] at given
    split at given
    · exact legible.collation word given
    · cases given
  · rw [default] at given
    obtain ⟨value, written, rfl⟩ := Option.map_eq_some_iff.mp given
    exact legible.default value written

theorem isLegible_constraints {t : Table} (legible : t.IsLegible) :
    ∀ line ∈ constraints t, line.IsLegible := by
  intro line member
  simp only [constraints, List.mem_append, List.mem_map] at member
  rcases member with (member | ⟨u, member, rfl⟩) | ⟨k, member, rfl⟩
  · split at member
    · obtain rfl := List.mem_singleton.mp member
      exact legible.compositeKey
    · cases member
  · exact legible.uniques u member
  · exact legible.foreignKeys k member

theorem isLegible_of_ofSchema {t : Table} {options : CreateOptions}
    (made : ofSchema t options = .ok s) (legible : t.IsLegible) : s.IsLegible := by
  obtain ⟨ds, written, rfl⟩ := exists_columnDefinitions made
  refine ⟨legible.name, fun line member => ?_⟩
  rcases List.mem_append.mp member with among | among
  · have lines := defines_columnDefinitions written
    obtain ⟨c, declared, d, defined, rfl⟩ := exists_column_of_mem lines among
    exact isLegible_of_ofColumn defined (legible.columns c declared)
  · exact isLegible_constraints legible line among

end CreateTable

namespace Table

/-- The text that creates a table is read as the statement it was written from. -/
theorem createTable?_createText {t : Table} {options : CreateOptions} {text : String}
    (written : t.createText options = .ok text) (legible : t.IsLegible) :
    ∃ s, CreateTable.ofSchema t options = .ok s ∧ createTable? text = some s.read := by
  obtain ⟨s, made, rfl⟩ := createText_eq_ok_iff.mp written
  exact ⟨s, made, CreateTable.createTable?_render (CreateTable.isLegible_of_ofSchema made legible)⟩

end Table

end TypedSql
