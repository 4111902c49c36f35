import TypedSql.Proofs.Definition.Determined

/-! Descriptions that no statement can express. A statement is written unless a column or its default
has no type, or a strict table has a column of mixed type; the error is about the first such column,
where a strict table looks at the types of all columns before it looks at any default. The options
of a statement that is written add words to its text and do nothing else. -/
namespace TypedSql

open Text

namespace Column

/-- The type of a column does not exist, or is mixed in a strict table. -/
def typeFault? (strict : Bool) (c : Column) : Option UnsupportedType :=
  if c.category.affinity? = none ∨ strict = true ∧ c.category.affinity? = some .numeric then
    some (.column c.name c.category)
  else none

/-- The type of a default does not exist. -/
def defaultFault? (c : Column) : Option UnsupportedType :=
  match c.default with
  | some d => if d.category.affinity? = none then some (.default c.name d.category) else none
  | none => none

/-- The type of a column is looked at before its default. -/
def fault? (c : Column) : Option UnsupportedType := (c.typeFault? false).or c.defaultFault?

variable {c : Column} {strict : Bool}

theorem typeFault?_eq_none_iff : c.typeFault? strict = none ↔
    c.category.affinity? ≠ none ∧ (strict = true → c.category.affinity? ≠ some .numeric) := by
  simp [typeFault?]

theorem defaultFault?_eq_none_iff :
    c.defaultFault? = none ↔ ∀ d ∈ c.default, d.category.affinity? ≠ none := by
  cases given : c.default <;> simp [defaultFault?, given]

/-- What is no fault in a strict table is none in any other. -/
theorem typeFault?_of_strict (sound : c.typeFault? true = none) : c.typeFault? strict = none := by
  rw [typeFault?_eq_none_iff] at sound ⊢
  exact ⟨sound.1, fun _ => sound.2 rfl⟩

theorem fault?_of_strict (sound : c.typeFault? true = none) : c.fault? = c.defaultFault? := by
  rw [fault?, typeFault?_of_strict sound, Option.none_or]

end Column

/-- The fault of the first column that has one. In a strict table those of the types come first. -/
def Table.fault? (t : Table) (strict : Bool) : Option UnsupportedType :=
  if strict then
    (t.columns.findSome? (Column.typeFault? true)).or (t.columns.findSome? Column.defaultFault?)
  else t.columns.findSome? Column.fault?

namespace ColumnDefinition

variable {c : Column} {isKey : Bool} {e : UnsupportedType}

theorem affinityOf_eq_error_iff : affinityOf c = .error e ↔ c.typeFault? false = some e := by
  unfold affinityOf Column.typeFault?
  cases c.category.affinity? <;> simp

theorem defaultOf_eq_error_iff : defaultOf c = .error e ↔ c.defaultFault? = some e := by
  unfold defaultOf Column.defaultFault?
  cases c.default with
  | none => simp
  | some d =>
    simp only [map_eq_error_iff, DefaultClause.ofDefault]
    cases d.category.affinity? <;> simp

theorem ofColumn_eq_error_iff : ofColumn c isKey = .error e ↔ c.fault? = some e := by
  have sound : (∃ a, affinityOf c = .ok a) ↔ c.typeFault? false = none := by
    simp [affinityOf_eq_ok_iff, Column.typeFault?_eq_none_iff, Option.ne_none_iff_exists']
  rw [ofColumn, bind_eq_error_iff, Column.fault?, Option.or_eq_some_iff]
  simp only [bind_pure_eq_error_iff, affinityOf_eq_error_iff, defaultOf_eq_error_iff, ← sound,
    exists_and_right]

theorem exists_ofColumn (sound : c.fault? = none) (isKey : Bool) : ∃ d, ofColumn c isKey = .ok d := by
  cases made : ofColumn c isKey with
  | ok d => exact ⟨d, rfl⟩
  | error e => simp [ofColumn_eq_error_iff.mp made] at sound

end ColumnDefinition

namespace CreateTable

variable {cs : List Column} {single : Bool} {e : UnsupportedType}

/-- The columns are written up to the first with a fault. -/
theorem columnDefinitions_eq_error_iff :
    columnDefinitions single cs = .error e ↔ cs.findSome? Column.fault? = some e := by
  induction cs with
  | nil => simp [columnDefinitions]
  | cons c cs ih =>
    rw [columnDefinitions, List.findSome?_cons]
    cases fault : c.fault? with
    | some f =>
      rw [ColumnDefinition.ofColumn_eq_error_iff.mpr fault]
      simp [bind, Except.bind]
    | none =>
      obtain ⟨d, made⟩ := ColumnDefinition.exists_ofColumn fault (single && c.primaryKey)
      rw [made, ← ih]
      exact bind_pure_eq_error_iff

theorem checkStrict_eq_error_iff :
    checkStrict cs = .error e ↔ cs.findSome? (Column.typeFault? true) = some e := by
  induction cs with
  | nil => simp [checkStrict]
  | cons c cs ih =>
    rw [checkStrict, List.findSome?_cons]
    cases typed : c.category.affinity? with
    | none => simp [ColumnDefinition.affinityOf, Column.typeFault?, typed, bind, Except.bind]
    | some a =>
      by_cases mixed : a = .numeric <;>
        simp [ColumnDefinition.affinityOf, Column.typeFault?, typed, mixed, bind, Except.bind, ih]

theorem checkStrict_eq_ok_iff :
    checkStrict cs = .ok () ↔ cs.findSome? (Column.typeFault? true) = none := by
  have failed : ∀ e, checkStrict cs ≠ .error e ↔ cs.findSome? (Column.typeFault? true) ≠ some e :=
    fun e => not_congr checkStrict_eq_error_iff
  rw [Option.eq_none_iff_forall_ne_some, ← forall_congr' failed]
  cases checkStrict cs <;> simp

/-- Where all types are sound, only defaults are left to fail. -/
theorem findSome?_fault?_of_strict (sound : cs.findSome? (Column.typeFault? true) = none) :
    cs.findSome? Column.fault? = cs.findSome? Column.defaultFault? := by
  induction cs with
  | nil => rfl
  | cons c cs ih =>
    rw [List.findSome?_eq_none_iff, List.forall_mem_cons, ← List.findSome?_eq_none_iff] at sound
    rw [List.findSome?_cons, List.findSome?_cons, Column.fault?_of_strict sound.1, ih sound.2]

variable {t : Table} {options : CreateOptions}

theorem ofSchema_eq (t : Table) (options : CreateOptions) :
    ofSchema t options = (if options.strict then checkStrict t.columns else .ok ()) >>= fun _ =>
      (columnDefinitions t.hasSingleKey t.columns).map fun columns =>
        ⟨options, t.name, columns ++ constraints t, t.withoutRowid⟩ := by
  unfold ofSchema
  cases options.strict <;> rfl

theorem ofSchema_eq_error_iff : ofSchema t options = .error e ↔ t.fault? options.strict = some e := by
  rw [ofSchema_eq, Table.fault?]
  cases options.strict with
  | false => exact map_eq_error_iff.trans columnDefinitions_eq_error_iff
  | true =>
    rw [if_pos rfl, if_pos rfl, Option.or_eq_some_iff, bind_eq_error_iff, checkStrict_eq_error_iff]
    refine or_congr Iff.rfl ⟨?_, ?_⟩
    · rintro ⟨_, checked, failed⟩
      have sound := checkStrict_eq_ok_iff.mp checked
      rw [map_eq_error_iff, columnDefinitions_eq_error_iff, findSome?_fault?_of_strict sound]
        at failed
      exact ⟨sound, failed⟩
    · rintro ⟨sound, failed⟩
      rw [← findSome?_fault?_of_strict sound, ← columnDefinitions_eq_error_iff] at failed
      exact ⟨(), checkStrict_eq_ok_iff.mpr sound, map_eq_error_iff.mpr failed⟩

/-- A statement is written under all options that are no stricter. -/
theorem ofSchema_of_options {options' : CreateOptions} {s : CreateTable}
    (made : ofSchema t options = .ok s) (looser : options'.strict = true → options.strict = true) :
    ofSchema t options' = .ok { s with options := options' } := by
  rw [ofSchema_eq] at made ⊢
  obtain ⟨_, checked, made⟩ := bind_eq_ok_iff.mp made
  obtain ⟨ds, written, rfl⟩ := map_eq_ok_iff.mp made
  refine bind_eq_ok_iff.mpr ⟨(), ?_, map_eq_ok_iff.mpr ⟨ds, written, rfl⟩⟩
  split
  case isTrue strict => rwa [if_pos (looser strict)] at checked
  case isFalse => rfl

/-- What a statement says behind the name of its table, options apart. -/
def description (s : CreateTable) : String :=
  " (\n" ++ String.intercalate ",\n" (s.definitions.map ("\t" ++ ·.render)) ++ "\n)" ++
    (if s.withoutRowid then " WITHOUT ROWID" else "")

end CreateTable

/-- A statement with the words of its options: before the name of the table, and before the final
semicolon. -/
def CreateOptions.decorate (options : CreateOptions) (name description : String) : String :=
  "CREATE " ++ (if options.temporary then "TEMP " else "") ++ "TABLE " ++
    (if options.ifNotExists then "IF NOT EXISTS " else "") ++ identifier name ++ description ++
    (if options.strict then " STRICT" else "") ++ ";"

theorem CreateTable.render_eq_decorate (s : CreateTable) :
    s.render = s.options.decorate s.name s.description := by
  simp only [render, header, description, CreateOptions.decorate, String.append_assoc]

namespace Table

variable {t : Table} {options : CreateOptions}

theorem createText_eq_error_iff {e : UnsupportedType} :
    t.createText options = .error e ↔ t.fault? options.strict = some e :=
  map_eq_error_iff.trans CreateTable.ofSchema_eq_error_iff

theorem fault?_eq_none_iff {strict : Bool} : t.fault? strict = none ↔
    (∀ c ∈ t.columns, c.category.affinity? ≠ none) ∧
      (∀ c ∈ t.columns, ∀ d ∈ c.default, d.category.affinity? ≠ none) ∧
      (strict = true → ∀ c ∈ t.columns, c.category.affinity? ≠ some .numeric) := by
  cases strict with
  | false =>
    simp only [fault?, Bool.false_eq_true, if_false, List.findSome?_eq_none_iff, Column.fault?,
      Option.or_eq_none_iff, Column.typeFault?_eq_none_iff, Column.defaultFault?_eq_none_iff,
      forall_and, false_implies, and_true]
  | true =>
    simp only [fault?, if_true, List.findSome?_eq_none_iff, Option.or_eq_none_iff,
      Column.typeFault?_eq_none_iff, Column.defaultFault?_eq_none_iff, forall_and, true_implies]
    exact and_right_comm.trans and_assoc

/-- No statement is written if a column or a default has no type, or if a strict table has a column of
mixed type, and only then; the error is the fault of the first such column. A statement that is
written under some options is the same text under all options that are no stricter, but for the words
of the options themselves. -/
theorem createText_fails_or_decorates (t : Table) (options : CreateOptions) :
    ((∃ e, t.createText options = .error e) ↔
      (∃ c ∈ t.columns, c.category.affinity? = none) ∨
      (∃ c ∈ t.columns, ∃ d ∈ c.default, d.category.affinity? = none) ∨
      options.strict = true ∧ ∃ c ∈ t.columns, c.category.affinity? = some .numeric) ∧
    (∀ e, t.createText options = .error e ↔ t.fault? options.strict = some e) ∧
    ∀ text, t.createText options = .ok text → ∃ description,
      text = options.decorate t.name description ∧
      ∀ options' : CreateOptions, (options'.strict = true → options.strict = true) →
        t.createText options' = .ok (options'.decorate t.name description) := by
  refine ⟨?_, fun _ => createText_eq_error_iff, ?_⟩
  · simp only [createText_eq_error_iff, ← Option.ne_none_iff_exists', ne_eq, fault?_eq_none_iff,
      not_and_or, Classical.not_imp, not_forall, not_not]
  · intro text written
    obtain ⟨s, made, rfl⟩ := createText_eq_ok_iff.mp written
    have named : s.name = t.name := by
      obtain ⟨ds, -, rfl⟩ := CreateTable.exists_columnDefinitions made
      rfl
    have chosen : s.options = options := by
      obtain ⟨ds, -, rfl⟩ := CreateTable.exists_columnDefinitions made
      rfl
    refine ⟨s.description, ?_, ?_⟩
    · rw [s.render_eq_decorate, named, chosen]
    · intro options' looser
      have made' := CreateTable.ofSchema_of_options made looser
      refine createText_eq_ok_iff.mpr ⟨_, made', ?_⟩
      rw [CreateTable.render_eq_decorate, ← named]
      rfl

def settings : Table :=
  { empty "settings" with
    columns := [{ Column.plain "key" ⟨.text, false⟩ with primaryKey := true }]
    withoutRowid := true }

/-- A default without a type in front of a column of mixed type. -/
def items : Table :=
  { empty "items" with
    columns := [{ Column.plain "count" ⟨.int .i64, false⟩ with default := some ⟨"7", .int .u8⟩ },
      Column.plain "price" ⟨.decimal, false⟩] }

/-- Words of the options around one description, and a table that is refused for its second column
only where it is strict. -/
theorem createText_fails_or_decorates_strictly :
    (∃ description,
      CreateOptions.decorate ⟨true, true, true⟩ "settings" description =
        "CREATE TEMP TABLE IF NOT EXISTS `settings` (\n\t`key` TEXT PRIMARY KEY\n) " ++
          "WITHOUT ROWID STRICT;" ∧
      settings.createText .none = .ok (CreateOptions.none.decorate "settings" description)) ∧
    items.createText .none = .error (.default "count" (.int .u8)) ∧
    items.createText ⟨false, false, true⟩ = .error (.column "price" .decimal) := by
  have written : settings.createText ⟨true, true, true⟩ =
      .ok ("CREATE TEMP TABLE IF NOT EXISTS `settings` (\n\t`key` TEXT PRIMARY KEY\n) " ++
        "WITHOUT ROWID STRICT;") := by rfl
  obtain ⟨-, -, decorated⟩ := createText_fails_or_decorates settings ⟨true, true, true⟩
  obtain ⟨description, same, others⟩ := decorated _ written
  have plain : settings.createText .none = .ok (CreateOptions.none.decorate "settings" description) :=
    others .none nofun
  obtain ⟨-, loose, -⟩ := createText_fails_or_decorates items .none
  obtain ⟨-, strict, -⟩ := createText_fails_or_decorates items ⟨false, false, true⟩
  exact ⟨⟨description, same.symm, plain⟩, (loose _).mpr (by decide), (strict _).mpr (by decide)⟩

end Table

end TypedSql
