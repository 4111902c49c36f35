import TypedSql.Definition

/-! What a statement that creates a table can tell about the description behind it. Names count
without the backticks on their edges, flags count when they reach the text, and a collation only
on a column that is collated. -/
namespace TypedSql

open Text

/-- A name without the backticks on its edges. -/
def bareName (name : String) : String := String.ofList (Delimiters.backtick.bare name.toList)

/-- A default and whether it stands in quotes, by the category of the default itself. -/
def DefaultValue.form (d : DefaultValue) : DefaultClause :=
  ⟨d.text, !d.category.affinity?.any Affinity.hasBareDefault⟩

def ForeignKey.form (k : ForeignKey) : ForeignKey :=
  { k with
    columns := k.columns.map bareName
    parent := bareName k.parent
    parentColumns := k.parentColumns.map bareName }

structure ColumnForm where
  name : String
  affinity : Option Affinity
  isKey : Bool
  autoincrement : Bool
  unique : Bool
  collation : Option String
  notNull : Bool
  default : Option DefaultClause
  deriving DecidableEq, Repr

/-- The column as it is written, when `isKey` tells that it is the key by itself. -/
def Column.form (isKey : Bool) (c : Column) : ColumnForm where
  name := bareName c.name
  affinity := c.category.affinity?
  isKey := isKey
  autoincrement := c.autoincrement && c.category.affinity? == some .integer
  unique := c.unique && !(c.autoincrement && c.category.affinity? == some .integer)
  collation := if c.category.affinity? = some .text then c.collation.keyword? else none
  notNull := c.required || (!isKey && !c.property.nullable)
  default := c.default.map DefaultValue.form

structure TableForm where
  name : String
  columns : List ColumnForm
  compositeKey : List String
  uniques : List (List String)
  foreignKeys : List ForeignKey
  withoutRowid : Bool
  deriving DecidableEq, Repr

/-- The description as it is written. The names of unique groups are not. -/
def Table.normalForm (t : Table) : TableForm where
  name := bareName t.name
  columns := t.columns.map fun c => c.form (t.hasSingleKey && c.primaryKey)
  compositeKey := t.compositeKey.map bareName
  uniques := t.uniques.map (·.columns.map bareName)
  foreignKeys := t.foreignKeys.map ForeignKey.form
  withoutRowid := t.withoutRowid

/-- No backtick is left inside the name. -/
def IsPlainName (name : String) : Prop := '\x60' ∉ (bareName name).toList

instance (name : String) : Decidable (IsPlainName name) := inferInstanceAs (Decidable (_ ∉ _))

/-- A character that ends neither a word nor a line and opens no quoted text. Letters, digits,
underscores, signs and points are such characters. -/
def isUnbroken (c : Char) : Bool := c != ' ' && c != ',' && c != '\n' && c != '"'

/-- A default that can stand where it is written: without quotes one unbroken word, and in quotes a
text that does not end them. -/
def DefaultClause.IsPlain (d : DefaultClause) : Prop :=
  if d.quoted then '"' ∉ d.text.toList else ∀ c ∈ d.text.toList, isUnbroken c = true

instance (d : DefaultClause) : Decidable d.IsPlain :=
  decidable_of_iff
    (if d.quoted then '"' ∉ d.text.toList else d.text.toList.all isUnbroken = true)
    (by rw [List.all_eq_true, DefaultClause.IsPlain])

/-- The texts of a column do not end before their last character. For the collation this concerns
custom names, in upper case. -/
structure Column.IsPlain (c : Column) : Prop where
  name : IsPlainName c.name
  collation : ∀ word ∈ c.collation.keyword?, ∀ x ∈ word.toList, isUnbroken x = true
  default : ∀ d ∈ c.default, d.form.IsPlain

instance (c : Column) : Decidable c.IsPlain :=
  decidable_of_iff (IsPlainName c.name ∧
      (∀ word ∈ c.collation.keyword?, word.toList.all isUnbroken = true) ∧
      ∀ d ∈ c.default, d.form.IsPlain)
    (by simp only [List.all_eq_true]
        exact ⟨fun ⟨name, collation, default⟩ => ⟨name, collation, default⟩,
          fun ⟨name, collation, default⟩ => ⟨name, collation, default⟩⟩)

/-- The texts of a description do not end before their last character. Keys and unique groups
consist of columns of the table. -/
structure Table.IsPlain (t : Table) : Prop where
  name : IsPlainName t.name
  columns : ∀ c ∈ t.columns, c.IsPlain
  parents : ∀ k ∈ t.foreignKeys, IsPlainName k.parent
  parentColumns : ∀ k ∈ t.foreignKeys, ∀ name ∈ k.parentColumns, IsPlainName name

end TypedSql
