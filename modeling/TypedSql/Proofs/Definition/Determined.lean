import TypedSql.Proofs.Definition.Clauses
import TypedSql.Proofs.Table.Build

/-! The text of a statement that creates a table determines its options and, up to the normal form,
the description it was made from. -/
namespace TypedSql

open Text

namespace TableForm

def keys (f : TableForm) : List (List String) := if f.compositeKey = [] then [] else [f.compositeKey]

/-- The lines of a table in their order. -/
def definitions (f : TableForm) : List DefinitionForm :=
  f.columns.map .column ++ f.keys.map .primaryKey ++ f.uniques.map .unique ++
    f.foreignKeys.map .foreignKey

end TableForm

namespace DefinitionForm

def column? : DefinitionForm → Option ColumnForm
  | .column c => some c
  | _ => none

def primaryKey? : DefinitionForm → Option (List String)
  | .primaryKey columns => some columns
  | _ => none

def unique? : DefinitionForm → Option (List String)
  | .unique columns => some columns
  | _ => none

def foreignKey? : DefinitionForm → Option ForeignKey
  | .foreignKey k => some k
  | _ => none

end DefinitionForm

namespace TableForm

variable {f g : TableForm}

theorem filterMap_definitions {γ : Type} (p : DefinitionForm → Option γ) :
    f.definitions.filterMap p =
      f.columns.filterMap (p <| .column ·) ++ f.keys.filterMap (p <| .primaryKey ·) ++
        f.uniques.filterMap (p <| .unique ·) ++ f.foreignKeys.filterMap (p <| .foreignKey ·) := by
  simp only [definitions, List.filterMap_append, List.filterMap_map, Function.comp_def]

theorem filterMap_none {α γ : Type} (as : List α) :
    as.filterMap (fun _ => (none : Option γ)) = [] :=
  List.filterMap_eq_nil_iff.mpr fun _ _ => rfl

theorem compositeKey_eq_of_keys_eq (h : f.keys = g.keys) : f.compositeKey = g.compositeKey := by
  unfold keys at h
  split at h <;> split at h <;> simp_all

/-- The lines are sorted by kind, so they determine the parts they come from. -/
theorem eq_of_definitions_eq (name : f.name = g.name) (lines : f.definitions = g.definitions)
    (rowid : f.withoutRowid = g.withoutRowid) : f = g := by
  have columns := congrArg (List.filterMap DefinitionForm.column?) lines
  have keys := congrArg (List.filterMap DefinitionForm.primaryKey?) lines
  have uniques := congrArg (List.filterMap DefinitionForm.unique?) lines
  have foreignKeys := congrArg (List.filterMap DefinitionForm.foreignKey?) lines
  simp only [filterMap_definitions, DefinitionForm.column?, DefinitionForm.primaryKey?,
    DefinitionForm.unique?, DefinitionForm.foreignKey?, filterMap_none, List.filterMap_some,
    List.append_nil, List.nil_append] at columns keys uniques foreignKeys
  have key := compositeKey_eq_of_keys_eq keys
  cases f
  cases g
  simp only [mk.injEq]
  exact ⟨name, columns, key, uniques, foreignKeys, rowid⟩

end TableForm

namespace CreateTable

/-- The names and texts of a statement do not end before their last character. -/
structure IsPlain (s : CreateTable) : Prop where
  name : IsPlainName s.name
  definitions : ∀ d ∈ s.definitions, d.IsPlain

def lines (s : CreateTable) : List Char :=
  ",\n".toList.intercalate (s.definitions.map fun d => '\t' :: d.render.toList)

def suffix (s : CreateTable) : List Char :=
  (if s.withoutRowid then " WITHOUT ROWID".toList else []) ++
    ((if s.options.strict then " STRICT".toList else []) ++ [])

def body (s : CreateTable) : List Char :=
  (identifier s.name).toList ++ (" (\n".toList ++ (s.lines ++ "\n)".toList ++
    (s.suffix ++ ";".toList)))

theorem toList_render (s : CreateTable) :
    s.render.toList =
      "CREATE ".toList ++ ((if s.options.temporary then "TEMP ".toList else []) ++
        ("TABLE ".toList ++ ((if s.options.ifNotExists then "IF NOT EXISTS ".toList else []) ++
          s.body))) := by
  have choice : ∀ (b : Bool) (word : String),
      (if b then word else "").toList = if b then word.toList else [] := by
    intro b word
    cases b <;> rfl
  have breaks : (s.definitions.map ("\t" ++ ·.render)).map String.toList =
      s.definitions.map fun d => '\t' :: d.render.toList := by
    rw [List.map_map]
    refine List.map_congr_left fun d _ => ?_
    simp
  simp only [render, header, body, suffix, lines, String.toList_append, choice,
    String.toList_intercalate, breaks, List.append_assoc, List.append_nil]

theorem lines_unambiguous :
    Unambiguous ["\n)".toList] IsPlain (fun s => s.definitions.map Definition.form) lines := by
  have apart : Apart ",\n".toList ["\n)".toList] := by decide
  have line := Definition.render_unambiguous.afterWord ['\t']
  have starts : ∀ (d : Definition) x, d.IsPlain →
      ¬ "\n)".toList <+: ['\t'] ++ d.render.toList ++ x := by
    intro d x _
    simp
  exact (line.separated apart starts).comap definitions fun _ plain => plain.definitions

theorem suffix_unambiguous :
    Unambiguous [";".toList] IsPlain (fun s => (s.withoutRowid, s.options.strict, ())) suffix := by
  have none : Clauses [";".toList] [";".toList] IsPlain (fun _ => ()) (fun _ => []) := .nil
  have strict := none.flag (by decide : Apart " STRICT".toList _) (·.options.strict)
  exact (strict.flag (by decide : Apart " WITHOUT ROWID".toList _) withoutRowid).unambiguous

theorem body_unambiguous :
    Unambiguous [[]] IsPlain (fun s => (bareName s.name, s.definitions.map Definition.form,
      s.withoutRowid, s.options.strict, ())) body := by
  have name : Unambiguous [[]] IsPlain (fun s => bareName s.name)
      (fun s => (identifier s.name).toList) :=
    unambiguous_identifier.comap name fun _ plain => plain.name
  have lines := lines_unambiguous.beforeWord "\n)".toList
    ⟨_, List.mem_cons_self, List.prefix_rfl⟩
  have suffix := suffix_unambiguous.beforeWord ";".toList ⟨_, List.mem_cons_self, List.prefix_rfl⟩
  exact name.andThen ((lines.andThen suffix).afterWord " (\n".toList)

/-- What a statement tells. -/
def form (s : CreateTable) : CreateOptions × String × List DefinitionForm × Bool :=
  (s.options, bareName s.name, s.definitions.map Definition.form, s.withoutRowid)

theorem render_unambiguous : Unambiguous [[]] IsPlain form (fun s => s.render.toList) := by
  have opens : ∀ (s : CreateTable) x, s.IsPlain → Opens [[]] x → Opens [['\x60']] (s.body ++ x) := by
    intro s x _ _
    simp only [body, toList_identifier, List.cons_append]
    exact ⟨['\x60'], List.mem_cons_self, by simp⟩
  have guarded := (Unambiguous.flag (by decide : Apart "IF NOT EXISTS ".toList [['\x60']])
    (fun s : CreateTable => s.options.ifNotExists)).append body_unambiguous opens
  have named := guarded.afterWord "TABLE ".toList
  have temporary := (Unambiguous.flag (by decide : Apart "TEMP ".toList ["TABLE ".toList])
    (fun s : CreateTable => s.options.temporary)).append named
    fun s x _ _ => by simpa only [List.append_assoc] using Opens.of_mem List.mem_cons_self
  have all := (temporary.afterWord "CREATE ".toList).map
    fun (temporary, ifNotExists, name, definitions, withoutRowid, strict, _) =>
      (CreateOptions.mk ifNotExists temporary strict, name, definitions, withoutRowid)
  intro a b x y oka okb openx openy eq
  simp only [toList_render] at eq
  exact all oka okb openx openy eq

end CreateTable

namespace ColumnDefinition

theorem affinityOf_eq_ok_iff {c : Column} {a : Affinity} :
    affinityOf c = .ok a ↔ c.category.affinity? = some a := by
  unfold affinityOf
  cases c.category.affinity? <;> simp

theorem defaultOf_eq_ok {c : Column} {clause : Option DefaultClause} (h : defaultOf c = .ok clause) :
    clause = c.default.map DefaultValue.form := by
  unfold defaultOf at h
  cases written : c.default with
  | none =>
    simp only [written, Except.ok.injEq] at h
    exact h.symm
  | some d =>
    cases typed : d.category.affinity? with
    | none => simp [written, DefaultClause.ofDefault, typed, Except.map] at h
    | some a =>
      simp only [written, DefaultClause.ofDefault, typed, Except.map, Except.ok.injEq] at h
      simp [← h, DefaultValue.form, typed]

/-- A column is written as its form says, and its texts are the ones that reach the statement. -/
theorem ofColumn_eq_ok {c : Column} {isKey : Bool} {d : ColumnDefinition}
    (h : ofColumn c isKey = .ok d) : d.form = c.form isKey ∧ (c.IsPlain → d.IsPlain) := by
  obtain ⟨a, typed, h⟩ := bind_eq_ok_iff.mp h
  obtain ⟨clause, written, h⟩ := bind_eq_ok_iff.mp h
  rw [affinityOf_eq_ok_iff] at typed
  obtain rfl := defaultOf_eq_ok written
  cases h
  constructor
  · cases a <;> simp [form, Column.form, typed, Affinity.allowsAutoincrement, Affinity.allowsCollation]
  · intro plain
    refine ⟨plain.name, fun name named => ?_, fun clause written => ?_⟩
    · simp only at named
      split at named
      · exact plain.collation name named
      · cases named
    · obtain ⟨d, given, rfl⟩ := Option.map_eq_some_iff.mp written
      exact plain.default d given

end ColumnDefinition

namespace CreateTable

theorem columnDefinitions_eq_ok {single : Bool} {cs : List Column} {ds : List Definition}
    (h : columnDefinitions single cs = .ok ds) :
    ds.map Definition.form = cs.map (fun c => .column (c.form (single && c.primaryKey))) ∧
      ((∀ c ∈ cs, c.IsPlain) → ∀ d ∈ ds, d.IsPlain) := by
  induction cs generalizing ds with
  | nil =>
    cases h
    exact ⟨rfl, nofun⟩
  | cons c cs ih =>
    obtain ⟨d, first, h⟩ := bind_eq_ok_iff.mp h
    obtain ⟨ds, rest, h⟩ := bind_eq_ok_iff.mp h
    cases h
    obtain ⟨form, plain⟩ := ColumnDefinition.ofColumn_eq_ok first
    obtain ⟨forms, plains⟩ := ih rest
    constructor
    · rw [List.map_cons, List.map_cons, forms, Definition.form, form]
    · intro all
      rw [List.forall_mem_cons] at all ⊢
      exact ⟨plain all.1, plains all.2⟩

theorem form_constraints (t : Table) :
    (constraints t).map Definition.form =
      t.normalForm.keys.map .primaryKey ++ t.normalForm.uniques.map .unique ++
        t.normalForm.foreignKeys.map .foreignKey := by
  unfold constraints TableForm.keys Table.normalForm Table.hasSingleKey
  cases t.compositeKey <;> simp [Definition.form, Function.comp_def]

/-- The lines of a statement are those of the columns, and behind them the constraints. -/
theorem exists_columnDefinitions {t : Table} {options : CreateOptions} {s : CreateTable}
    (h : ofSchema t options = .ok s) : ∃ ds, columnDefinitions t.hasSingleKey t.columns = .ok ds ∧
      ⟨options, t.name, ds ++ constraints t, t.withoutRowid⟩ = s := by
  unfold ofSchema at h
  split at h
  · obtain ⟨_, _, h⟩ := bind_eq_ok_iff.mp h
    obtain ⟨ds, written, h⟩ := bind_eq_ok_iff.mp h
    exact ⟨ds, written, Except.ok.inj h⟩
  · obtain ⟨ds, written, h⟩ := bind_eq_ok_iff.mp h
    exact ⟨ds, written, Except.ok.inj h⟩

/-- A statement tells its options and the normal form of its description. -/
theorem ofSchema_eq_ok {t : Table} {options : CreateOptions} {s : CreateTable}
    (h : ofSchema t options = .ok s) :
    s.form = (options, t.normalForm.name, t.normalForm.definitions, t.normalForm.withoutRowid) ∧
      ((∀ c ∈ t.columns, c.IsPlain) → (∀ d ∈ constraints t, d.IsPlain) → IsPlainName t.name →
        s.IsPlain) := by
  obtain ⟨ds, written, rfl⟩ := exists_columnDefinitions h
  obtain ⟨forms, plains⟩ := columnDefinitions_eq_ok written
  constructor
  · simp only [form, TableForm.definitions, List.map_append, forms, form_constraints]
    simp [Table.normalForm]
  · intro columns constraints name
    exact ⟨name, fun d member => (List.mem_append.mp member).elim (plains columns d) (constraints d)⟩

end CreateTable

namespace Table

theorem createText_eq_ok_iff {t : Table} {options : CreateOptions} {text : String} :
    t.createText options = .ok text ↔
      ∃ s, CreateTable.ofSchema t options = .ok s ∧ s.render = text := by
  unfold createText
  cases CreateTable.ofSchema t options <;> simp [Except.map]

/-- The lists of a checked table hold its own columns, and none but the key's is empty. -/
theorem references_of_validate_eq_ok {d t : Table} (built : d.validate = .ok t) :
    (∀ name ∈ t.compositeKey, name ∈ t.columnNames) ∧
    (∀ u ∈ t.uniques, u.columns ≠ [] ∧ ∀ name ∈ u.columns, name ∈ t.columnNames) ∧
    ∀ k ∈ t.foreignKeys, k.columns ≠ [] ∧ k.columns.length = k.parentColumns.length ∧
      ∀ name ∈ k.columns, name ∈ t.columnNames := by
  obtain ⟨-, -, -, -, -, key, uniques, foreignKeys, rfl⟩ := validate_eq_ok_iff.mp built
  rw [checkNames_eq_ok_iff] at key
  rw [checkAll_eq_ok_iff] at uniques foreignKeys
  simp only [checkUnique_eq_ok_iff, checkForeignKey_eq_ok_iff] at uniques foreignKeys
  exact ⟨key, uniques, foreignKeys⟩

/-- The constraints of a checked table name nothing but its columns and those of the parents. -/
theorem IsPlain.constraints {d t : Table} (plain : t.IsPlain) (built : d.validate = .ok t) :
    ∀ line ∈ CreateTable.constraints t, line.IsPlain := by
  obtain ⟨key, uniques, foreignKeys⟩ := references_of_validate_eq_ok built
  have declared : ∀ name ∈ t.columnNames, IsPlainName name := by
    intro name member
    obtain ⟨c, among, rfl⟩ := List.mem_map.mp member
    exact (plain.columns c among).name
  intro line member
  simp only [CreateTable.constraints, List.mem_append, List.mem_map] at member
  rcases member with (member | ⟨u, member, rfl⟩) | ⟨k, member, rfl⟩
  · split at member
    · obtain rfl := List.mem_singleton.mp member
      exact fun name among => declared name (key name among)
    · cases member
  · exact fun name among => declared name ((uniques u member).2 name among)
  · exact ⟨fun name among => declared name ((foreignKeys k member).2.2 name among),
      plain.parents k member, plain.parentColumns k member⟩

/-- Equal statements come from equal options and from checked descriptions of one normal form. -/
theorem normalForm_eq_of_createText_eq {name₁ name₂ : String} {steps₁ steps₂ : List TableStep}
    {t₁ t₂ : Table} {options₁ options₂ : CreateOptions} {text : String}
    (built₁ : build name₁ steps₁ = .ok t₁) (built₂ : build name₂ steps₂ = .ok t₂)
    (plain₁ : t₁.IsPlain) (plain₂ : t₂.IsPlain)
    (written₁ : t₁.createText options₁ = .ok text) (written₂ : t₂.createText options₂ = .ok text) :
    options₁ = options₂ ∧ t₁.normalForm = t₂.normalForm := by
  obtain ⟨s₁, made₁, rfl⟩ := createText_eq_ok_iff.mp written₁
  obtain ⟨s₂, made₂, same⟩ := createText_eq_ok_iff.mp written₂
  obtain ⟨form₁, carries₁⟩ := CreateTable.ofSchema_eq_ok made₁
  obtain ⟨form₂, carries₂⟩ := CreateTable.ofSchema_eq_ok made₂
  have told₁ := carries₁ plain₁.columns (plain₁.constraints built₁) plain₁.name
  have told₂ := carries₂ plain₂.columns (plain₂.constraints built₂) plain₂.name
  obtain ⟨forms, -⟩ := CreateTable.render_unambiguous told₁ told₂ (opens_any []) (opens_any [])
    (by simp only [same])
  rw [form₁, form₂] at forms
  simp only [Prod.mk.injEq] at forms
  obtain ⟨options, name, definitions, rowid⟩ := forms
  exact ⟨options, TableForm.eq_of_definitions_eq name definitions rowid⟩

/-- A table whose names hold commas and parentheses. -/
def pageSteps (key : String) (unique : Bool) (collation : Collation) : List TableStep :=
  [.column { Column.plain key ⟨.int .i64, false⟩ with
      primaryKey := true, autoincrement := true, unique := unique },
    .column { Column.plain "a, (b" ⟨.text, true⟩ with
      collation := collation, default := some ⟨"it's, (so)\n", .text⟩ },
    .foreignKey ⟨["a, (b"], "parent", ["x) ON"], .cascade, .setNull⟩]

def pageText : String :=
  "CREATE TABLE `pages` (\n\t`id` INTEGER PRIMARY KEY AUTOINCREMENT,\n" ++
    "\t`a, (b` TEXT COLLATE NOCASE DEFAULT \"it's, (so)\n\",\n" ++
    "\tFOREIGN KEY(`a, (b`) REFERENCES `parent`(`x) ON`) " ++
    "ON UPDATE CASCADE ON DELETE SET NULL\n);"

set_option maxRecDepth 2048 in
/-- Delimiters on the edges of a name, the spelling of a collation and a unique flag on the numbered
key do not reach the statement, and nothing else is lost. -/
theorem normalForm_eq_of_createText_eq_pages :
    ∃ t₁ t₂, build "pages" (pageSteps "id" true (.custom "nocase")) = .ok t₁ ∧
      build "`pages" (pageSteps "`id`" false .noCase) = .ok t₂ ∧ t₁ ≠ t₂ ∧
      t₁.createText .none = .ok pageText ∧ t₂.createText .none = .ok pageText ∧
      t₁.normalForm = t₂.normalForm := by
  have built₁ : build "pages" (pageSteps "id" true (.custom "nocase")) =
      .ok (described "pages" (pageSteps "id" true (.custom "nocase"))) := by rfl
  have built₂ : build "`pages" (pageSteps "`id`" false .noCase) =
      .ok (described "`pages" (pageSteps "`id`" false .noCase)) := by rfl
  have plain₁ : (described "pages" (pageSteps "id" true (.custom "nocase"))).IsPlain := by
    constructor <;> decide
  have plain₂ : (described "`pages" (pageSteps "`id`" false .noCase)).IsPlain := by
    constructor <;> decide
  have written₁ : (described "pages" (pageSteps "id" true (.custom "nocase"))).createText .none =
      .ok pageText := by rfl
  have written₂ : (described "`pages" (pageSteps "`id`" false .noCase)).createText .none =
      .ok pageText := by rfl
  exact ⟨_, _, built₁, built₂, by decide, written₁, written₂,
    (normalForm_eq_of_createText_eq built₁ built₂ plain₁ plain₂ written₁ written₂).2⟩

end Table

end TypedSql
