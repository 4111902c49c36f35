import TypedSql.Proofs.Text.Unambiguous
import TypedSql.Proofs.Definition.NormalForm

/-! The parts of a statement that creates a table, each unambiguous before what can follow it:
delimited names and lists of them, the clauses of a column in their fixed order, and the lines
between the parentheses. -/
namespace TypedSql

open Text

theorem toList_identifier (name : String) :
    (identifier name).toList = '\x60' :: ((bareName name).toList ++ ['\x60']) := by
  simp only [identifier, Delimiters.delimit, Delimiters.backtick, bareName, String.toList_ofList]

theorem unambiguous_identifier :
    Unambiguous [[]] IsPlainName bareName (fun name => (identifier name).toList) := by
  intro a b x y oka okb openx openy eq
  simp only [toList_identifier] at eq
  obtain ⟨same, rest⟩ := Unambiguous.delimited '\x60' oka okb openx openy eq
  exact ⟨String.toList_inj.mp same, rest⟩

def columnList (names : List String) : List Char :=
  '(' :: ((identifierList names).toList ++ [')'])

theorem unambiguous_columnList :
    Unambiguous [[]] (fun names : List String => ∀ name ∈ names, IsPlainName name)
      (List.map bareName) columnList := by
  have apart : Apart ", ".toList [[')']] := by decide
  have starts : ∀ name x, IsPlainName name → ¬ [')'] <+: (identifier name).toList ++ x := by
    intro name x _
    rw [toList_identifier]
    simp
  have ends : Opens [[')']] [')'] := ⟨[')'], List.mem_cons_self, List.prefix_rfl⟩
  have names := unambiguous_identifier.before.separated apart starts
  intro a b x y oka okb openx openy eq
  refine (names.beforeWord [')'] ends).afterWord ['('] oka okb openx openy ?_
  simpa only [columnList, identifierList, String.toList_intercalate, List.map_map] using! eq

theorem unambiguous_keyword :
    Unambiguous [[]] (fun _ : Affinity => True) id (fun a => a.keyword.toList) := by
  intro a b x y _ _ _ _ eq
  cases a <;> cases b <;> simp_all [Affinity.keyword]

namespace ColumnDefinition

def form (d : ColumnDefinition) : ColumnForm where
  name := bareName d.name
  affinity := some d.affinity
  isKey := d.primaryKey
  autoincrement := d.autoincrement
  unique := d.unique
  collation := d.collation
  notNull := d.notNull
  default := d.default

structure IsPlain (d : ColumnDefinition) : Prop where
  name : IsPlainName d.name
  collation : ∀ name, d.collation = some name → ∀ x ∈ name.toList, isUnbroken x = true
  default : ∀ clause, d.default = some clause → clause.IsPlain

end ColumnDefinition

/-- The line ends inside the parentheses: another line follows, or the closing parenthesis. -/
def lineEnds : List (List Char) := [",\n".toList, "\n)".toList]

/-- A run of unbroken characters ends before a clause and at the end of the line. -/
theorem unambiguous_unbroken {heads : List (List Char)}
    (stops : ∀ head ∈ heads, head.head?.any (!isUnbroken ·) = true) :
    Unambiguous heads (fun word : String => ∀ x ∈ word.toList, isUnbroken x = true) id
      String.toList := by
  intro a b x y oka okb openx openy eq
  obtain ⟨same, rest⟩ := Unambiguous.run isUnbroken stops oka okb openx openy eq
  exact ⟨String.toList_inj.mp same, rest⟩

/-- What opens with an unbroken word or ends the line does not open with a double quote. -/
theorem ne_quote_of_unbroken {word x y : List Char} (unbroken : ∀ c ∈ word, isUnbroken c = true)
    (ends : Opens lineEnds x) : word ++ x ≠ '"' :: y := by
  intro eq
  cases word with
  | nil =>
    have apart : Apart ['"'] lineEnds := by decide
    exact apart.not_prefix ends ⟨y, eq.symm⟩
  | cons c word =>
    obtain ⟨rfl, -⟩ := List.cons.inj eq
    exact absurd (unbroken '"' List.mem_cons_self) (by decide)

theorem unambiguous_default : Unambiguous lineEnds DefaultClause.IsPlain id
    (fun d => d.render.toList) := by
  have bare : Unambiguous lineEnds (fun word : String => ∀ x ∈ word.toList, isUnbroken x = true) id
      String.toList := unambiguous_unbroken (by decide)
  rintro ⟨a, qa⟩ ⟨b, qb⟩ x y oka okb openx openy eq
  cases qa <;> cases qb <;>
    simp only [DefaultClause.IsPlain, DefaultClause.render, Bool.false_eq_true, if_true, if_false,
      String.toList_append, List.append_assoc] at oka okb eq
  · obtain ⟨same, rest⟩ := bare oka okb openx openy eq
    obtain rfl : a = b := same
    exact ⟨rfl, rest⟩
  · exact absurd eq (ne_quote_of_unbroken oka openx)
  · exact absurd eq.symm (ne_quote_of_unbroken okb openy)
  · obtain ⟨same, rest⟩ := Unambiguous.delimited '"' oka okb (opens_any x) (opens_any y)
      (by simpa using eq)
    obtain rfl := String.toList_inj.mp same
    exact ⟨rfl, rest⟩

namespace ColumnDefinition

/-- The clauses behind the type of a column. -/
def clauses (d : ColumnDefinition) : List Char :=
  (if d.primaryKey then " PRIMARY KEY".toList else []) ++
    ((if d.autoincrement then " AUTOINCREMENT".toList else []) ++
      ((if d.unique then " UNIQUE".toList else []) ++
        (d.collation.elim [] (" COLLATE ".toList ++ ·.toList) ++
          ((if d.notNull then " NOT NULL".toList else []) ++
            (d.default.elim [] (" DEFAULT ".toList ++ ·.render.toList) ++ [])))))

theorem toList_clause (holds : Bool) (text : String) :
    (clause holds text).toList = if holds then text.toList else [] := by
  cases holds <;> rfl

theorem toList_render (d : ColumnDefinition) :
    d.render.toList =
      (identifier d.name).toList ++ (' ' :: (d.affinity.keyword.toList ++ d.clauses)) := by
  rcases d with ⟨name, affinity, primaryKey, autoincrement, unique, _ | collation, notNull,
    _ | default⟩ <;>
    simp only [render, clauses, toList_clause, String.toList_append, Option.elim_none,
      Option.elim_some, List.append_assoc, List.append_nil, String.toList_empty] <;> rfl

/-- The clauses are told apart by their first words, whichever of them are there. -/
theorem clauses_unambiguous :
    Clauses lineEnds [" PRIMARY KEY".toList, " AUTOINCREMENT".toList, " UNIQUE".toList,
      " COLLATE ".toList, " NOT NULL".toList, " DEFAULT ".toList, ",\n".toList, "\n)".toList]
      IsPlain (fun d => (d.primaryKey, d.autoincrement, d.unique, d.collation.map id, d.notNull,
        d.default.map id, ())) clauses := by
  have last : Clauses lineEnds lineEnds IsPlain (fun _ => ()) (fun _ => []) := .nil
  have default := last.optional (by decide : Apart " DEFAULT ".toList lineEnds)
    unambiguous_default ColumnDefinition.default fun _ _ plain => plain.default _
  have notNull := default.flag (by decide : Apart " NOT NULL".toList _) notNull
  have collation := notNull.optional (by decide : Apart " COLLATE ".toList _)
    (unambiguous_unbroken (by decide)) collation fun _ _ plain => plain.collation _
  have unique := collation.flag (by decide : Apart " UNIQUE".toList _) unique
  have autoincrement := unique.flag (by decide : Apart " AUTOINCREMENT".toList _) autoincrement
  exact autoincrement.flag (by decide) primaryKey

theorem render_unambiguous :
    Unambiguous lineEnds IsPlain form (fun d => d.render.toList) := by
  have names : Unambiguous [[]] IsPlain (fun d => bareName d.name)
      (fun d => (identifier d.name).toList) :=
    unambiguous_identifier.comap name fun _ plain => plain.name
  have keywords : Unambiguous [[]] IsPlain (fun d => d.affinity)
      (fun d => d.affinity.keyword.toList) :=
    unambiguous_keyword.comap affinity fun _ _ => trivial
  have all := names.andThen ((keywords.andThen clauses_unambiguous.unambiguous).afterWord [' '])
  have forms := all.map fun (name, affinity, isKey, autoincrement, unique, collation, notNull,
    default, _) => ColumnForm.mk name (some affinity) isKey autoincrement unique collation notNull
      default
  intro a b x y oka okb openx openy eq
  simp only [toList_render] at eq
  simpa only [form, Option.map_id_apply] using forms oka okb openx openy eq

end ColumnDefinition

/-- The action of a clause, if it has one. -/
def ReferentialAction.given? (a : ReferentialAction) : Option ReferentialAction :=
  if a = .noAction then none else some a

theorem ReferentialAction.getD_given? (a : ReferentialAction) : a.given?.getD .noAction = a := by
  cases a <;> rfl

theorem unambiguous_action :
    Unambiguous [[]] (fun _ : ReferentialAction => True) id (fun a => a.keyword.toList) := by
  intro a b x y _ _ _ _ eq
  cases a <;> cases b <;> simp_all [ReferentialAction.keyword]

theorem toList_actionClause (event : String) (a : ReferentialAction) :
    (Definition.actionClause event a).toList =
      a.given?.elim [] ((" ON " ++ event ++ " ").toList ++ ·.keyword.toList) := by
  unfold Definition.actionClause ReferentialAction.given?
  split
  · rfl
  · simp only [Option.elim_some, String.toList_append, List.append_assoc]

namespace ForeignKey

structure IsPlain (k : ForeignKey) : Prop where
  columns : ∀ name ∈ k.columns, IsPlainName name
  parent : IsPlainName k.parent
  parentColumns : ∀ name ∈ k.parentColumns, IsPlainName name

def text (k : ForeignKey) : List Char :=
  columnList k.columns ++ (" REFERENCES ".toList ++ ((identifier k.parent).toList ++
    (columnList k.parentColumns ++
      (k.onUpdate.given?.elim [] (" ON UPDATE ".toList ++ ·.keyword.toList) ++
        (k.onDelete.given?.elim [] (" ON DELETE ".toList ++ ·.keyword.toList) ++ [])))))

theorem text_unambiguous : Unambiguous lineEnds IsPlain form text := by
  have columns : Unambiguous [[]] IsPlain (fun k => k.columns.map bareName)
      (fun k => columnList k.columns) :=
    unambiguous_columnList.comap columns fun _ plain => plain.columns
  have parent : Unambiguous [[]] IsPlain (fun k => bareName k.parent)
      (fun k => (identifier k.parent).toList) :=
    unambiguous_identifier.comap parent fun _ plain => plain.parent
  have parentColumns : Unambiguous [[]] IsPlain (fun k => k.parentColumns.map bareName)
      (fun k => columnList k.parentColumns) :=
    unambiguous_columnList.comap parentColumns fun _ plain => plain.parentColumns
  have none : Clauses lineEnds lineEnds IsPlain (fun _ => ()) (fun _ => []) := .nil
  have onDelete := none.optional (by decide : Apart " ON DELETE ".toList lineEnds)
    unambiguous_action.before (fun k => k.onDelete.given?) fun _ _ _ _ => trivial
  have actions := onDelete.optional (by decide : Apart " ON UPDATE ".toList _)
    unambiguous_action.before (fun k => k.onUpdate.given?) fun _ _ _ _ => trivial
  have all := columns.andThen ((parent.andThen (parentColumns.andThen
    actions.unambiguous)).afterWord " REFERENCES ".toList)
  have forms := all.map fun (columns, parent, parentColumns, onUpdate, onDelete, _) =>
    ForeignKey.mk columns parent parentColumns (onUpdate.getD .noAction) (onDelete.getD .noAction)
  intro a b x y oka okb openx openy eq
  simpa only [form, Option.map_id_apply, ReferentialAction.getD_given?] using
    forms oka okb openx openy eq

end ForeignKey

/-- What a line between the parentheses tells. -/
inductive DefinitionForm where
  | column (c : ColumnForm)
  | primaryKey (columns : List String)
  | unique (columns : List String)
  | foreignKey (k : ForeignKey)
  deriving DecidableEq, Repr

namespace Definition

def form : Definition → DefinitionForm
  | .column d => .column d.form
  | .primaryKey columns => .primaryKey (columns.map bareName)
  | .unique columns => .unique (columns.map bareName)
  | .foreignKey k => .foreignKey k.form

def IsPlain : Definition → Prop
  | .column d => d.IsPlain
  | .primaryKey columns => ∀ name ∈ columns, IsPlainName name
  | .unique columns => ∀ name ∈ columns, IsPlainName name
  | .foreignKey k => k.IsPlain

theorem toList_render_column (d : ColumnDefinition) :
    (render (.column d)).toList =
      (identifier d.name).toList ++ (' ' :: (d.affinity.keyword.toList ++ d.clauses)) :=
  d.toList_render

theorem toList_render_primaryKey (columns : List String) :
    (render (.primaryKey columns)).toList = "PRIMARY KEY".toList ++ columnList columns := by
  change ("PRIMARY KEY(" ++ identifierList columns ++ ")").toList = _
  simp [columnList]

theorem toList_render_unique (columns : List String) :
    (render (.unique columns)).toList = "UNIQUE".toList ++ columnList columns := by
  change ("UNIQUE(" ++ identifierList columns ++ ")").toList = _
  simp [columnList]

theorem toList_render_foreignKey (k : ForeignKey) :
    (render (.foreignKey k)).toList = "FOREIGN KEY".toList ++ k.text := by
  change ("FOREIGN KEY(" ++ identifierList k.columns ++ ") REFERENCES " ++ identifier k.parent ++
    "(" ++ identifierList k.parentColumns ++ ")" ++ actionClause "UPDATE" k.onUpdate ++
    actionClause "DELETE" k.onDelete).toList = _
  simp [toList_actionClause, ForeignKey.text, columnList]

/-- A column opens with its delimiter and a constraint with its own letter. -/
theorem render_unambiguous : Unambiguous lineEnds IsPlain form (fun d => d.render.toList) := by
  have lists : ∀ word, Unambiguous lineEnds (fun names => ∀ name ∈ names, IsPlainName name)
      (List.map bareName) (fun names => word ++ columnList names) :=
    fun word => unambiguous_columnList.before.afterWord word
  rintro (d | columns | columns | k) (d' | columns' | columns' | k') x y oka okb openx openy eq
  case column.column =>
    obtain ⟨same, rest⟩ := ColumnDefinition.render_unambiguous oka okb openx openy eq
    exact ⟨congrArg DefinitionForm.column same, rest⟩
  case primaryKey.primaryKey =>
    simp only [toList_render_primaryKey] at eq
    obtain ⟨same, rest⟩ := lists _ oka okb openx openy eq
    exact ⟨congrArg DefinitionForm.primaryKey same, rest⟩
  case unique.unique =>
    simp only [toList_render_unique] at eq
    obtain ⟨same, rest⟩ := lists _ oka okb openx openy eq
    exact ⟨congrArg DefinitionForm.unique same, rest⟩
  case foreignKey.foreignKey =>
    simp only [toList_render_foreignKey] at eq
    obtain ⟨same, rest⟩ := (ForeignKey.text_unambiguous.afterWord _) oka okb openx openy eq
    exact ⟨congrArg DefinitionForm.foreignKey same, rest⟩
  all_goals
    have first := congrArg List.head? eq
    simp [toList_render_column, toList_render_primaryKey, toList_render_unique,
      toList_render_foreignKey, toList_identifier] at first

end Definition

end TypedSql
