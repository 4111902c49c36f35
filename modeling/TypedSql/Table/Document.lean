import TypedSql.Json
import TypedSql.Category
import TypedSql.Table.Basic

/-! Descriptions of tables as JSON documents. Every field is written, but `withoutRowid` only where
it holds. A reader accepts missing fields that have a default; it does not check the description. -/
namespace TypedSql

namespace Category

def toJson (c : Category) : Json := .string c.tag

def ofJson? : Json → Option Category := Json.choice? ofTag?

end Category

namespace Collation

def toJson : Collation → Json
  | .standard => .string "default"
  | .binary => .string "binary"
  | .noCase => .string "no_case"
  | .rTrim => .string "r_trim"
  | .custom name => .object [("custom", .string name)]

def ofTag? (tag : String) : Option Collation := named.lookup tag

def ofJson? : Json → Option Collation
  | .object [("custom", .string name)] => some (.custom name)
  | j => Json.choice? ofTag? j

end Collation

namespace Property

def fieldNames : List String := ["category", "nullable"]

def toJson (t : Property) : Json :=
  .object [("category", t.category.toJson), ("nullable", .bool t.nullable)]

def ofFields? : List (Option Json) → Option Property
  | [category, nullable] => do
    some ⟨← Json.required? Category.ofJson? category, ← Json.required? Json.bool? nullable⟩
  | _ => none

def ofJson? (j : Json) : Option Property := (j.fields? fieldNames).bind ofFields?

end Property

namespace DefaultValue

def fieldNames : List String := ["value", "category"]

def toJson (d : DefaultValue) : Json :=
  .object [("value", .string d.text), ("category", d.category.toJson)]

def ofFields? : List (Option Json) → Option DefaultValue
  | [value, category] => do
    some ⟨← Json.required? Json.string? value, ← Json.required? Category.ofJson? category⟩
  | _ => none

def ofJson? (j : Json) : Option DefaultValue := (j.fields? fieldNames).bind ofFields?

end DefaultValue

namespace Column

def fieldNames : List String :=
  ["name", "type", "primaryKey", "unique", "autoincrement", "collation", "required", "default"]

def toJson (c : Column) : Json :=
  .object
    [("name", .string c.name), ("type", c.property.toJson), ("primaryKey", .bool c.primaryKey),
      ("unique", .bool c.unique), ("autoincrement", .bool c.autoincrement),
      ("collation", c.collation.toJson), ("required", .bool c.required),
      ("default", (c.default.map DefaultValue.toJson).getD .null)]

def ofFields? : List (Option Json) → Option Column
  | [name, property, primaryKey, unique, autoincrement, collation, required, default] => do
    some
      { name := ← Json.required? Json.string? name
        property := ← Json.required? Property.ofJson? property
        primaryKey := ← Json.defaulted? false Json.bool? primaryKey
        unique := ← Json.defaulted? false Json.bool? unique
        autoincrement := ← Json.defaulted? false Json.bool? autoincrement
        collation := ← Json.defaulted? .standard Collation.ofJson? collation
        required := ← Json.defaulted? false Json.bool? required
        default := ← Json.defaulted? none (Json.optional? DefaultValue.ofJson?) default }
  | _ => none

def ofJson? (j : Json) : Option Column := (j.fields? fieldNames).bind ofFields?

end Column

namespace UniqueGroup

def fieldNames : List String := ["name", "columns"]

def toJson (u : UniqueGroup) : Json :=
  .object [("name", .string u.name), ("columns", .array (u.columns.map .string))]

def ofFields? : List (Option Json) → Option UniqueGroup
  | [name, columns] => do
    some ⟨← Json.required? Json.string? name,
      ← Json.required? (Json.list? Json.string?) columns⟩
  | _ => none

def ofJson? (j : Json) : Option UniqueGroup := (j.fields? fieldNames).bind ofFields?

end UniqueGroup

namespace ReferentialAction

def toJson (a : ReferentialAction) : Json := .string a.tag

def ofJson? : Json → Option ReferentialAction := Json.choice? ofTag?

end ReferentialAction

namespace ForeignKey

def fieldNames : List String := ["columns", "tableTo", "columnsTo", "onUpdate", "onDelete"]

def toJson (k : ForeignKey) : Json :=
  .object
    [("columns", .array (k.columns.map .string)), ("tableTo", .string k.parent),
      ("columnsTo", .array (k.parentColumns.map .string)), ("onUpdate", k.onUpdate.toJson),
      ("onDelete", k.onDelete.toJson)]

def ofFields? : List (Option Json) → Option ForeignKey
  | [columns, parent, parentColumns, onUpdate, onDelete] => do
    some
      { columns := ← Json.required? (Json.list? Json.string?) columns
        parent := ← Json.required? Json.string? parent
        parentColumns := ← Json.required? (Json.list? Json.string?) parentColumns
        onUpdate := ← Json.defaulted? .noAction ReferentialAction.ofJson? onUpdate
        onDelete := ← Json.defaulted? .noAction ReferentialAction.ofJson? onDelete }
  | _ => none

def ofJson? (j : Json) : Option ForeignKey := (j.fields? fieldNames).bind ofFields?

end ForeignKey

namespace Table

def fieldNames : List String :=
  ["name", "columns", "compositePrimaryKey", "uniqueConstraints", "foreignKeys", "withoutRowid"]

def toJson (t : Table) : Json :=
  .object
    ([("name", .string t.name), ("columns", .array (t.columns.map Column.toJson)),
      ("compositePrimaryKey", .array (t.compositeKey.map .string)),
      ("uniqueConstraints", .array (t.uniques.map UniqueGroup.toJson)),
      ("foreignKeys", .array (t.foreignKeys.map ForeignKey.toJson))] ++
      (if t.withoutRowid then [("withoutRowid", .bool true)] else []))

def ofFields? : List (Option Json) → Option Table
  | [name, columns, compositeKey, uniques, foreignKeys, withoutRowid] => do
    some
      { name := ← Json.required? Json.string? name
        columns := ← Json.required? (Json.list? Column.ofJson?) columns
        compositeKey := ← Json.defaulted? [] (Json.list? Json.string?) compositeKey
        uniques := ← Json.defaulted? [] (Json.list? UniqueGroup.ofJson?) uniques
        foreignKeys := ← Json.defaulted? [] (Json.list? ForeignKey.ofJson?) foreignKeys
        withoutRowid := ← Json.defaulted? false Json.bool? withoutRowid }
  | _ => none

def ofJson? (j : Json) : Option Table := (j.fields? fieldNames).bind ofFields?

end Table

end TypedSql
