import TypedSql.Definition
import TypedSql.Table.Document
import TypedSql.Proofs.Json

/-! The documents of a description of a table. Each part of it is a structure that may be spelled in
several ways, so a description has many documents; every one of them is read as the description it
is a document of, whether or not the description is one that may be built. -/
namespace TypedSql

open Json (Field Listed Optional Reads Structure)

namespace Category

def Document (c : Category) : Json → Prop := Json.Choice c.tag

theorem document_toJson (c : Category) : c.Document c.toJson := .inl rfl

theorem reads : Reads ofJson? Document := .choice ofTag?_tag

end Category

namespace ReferentialAction

def Document (a : ReferentialAction) : Json → Prop := Json.Choice a.tag

theorem document_toJson (a : ReferentialAction) : a.Document a.toJson := .inl rfl

theorem reads : Reads ofJson? Document := .choice ofTag?_tag

end ReferentialAction

namespace Collation

def Document : Collation → Json → Prop
  | .standard => Json.Choice "default"
  | .binary => Json.Choice "binary"
  | .noCase => Json.Choice "no_case"
  | .rTrim => Json.Choice "r_trim"
  | .custom name => (· = .object [("custom", .string name)])

theorem document_toJson (c : Collation) : c.Document c.toJson := by
  cases c with
  | custom name => rfl
  | _ => exact .inl rfl

theorem mem_named_of_ofTag? {tag : String} {c : Collation} (h : ofTag? tag = some c) :
    (tag, c) ∈ named := by
  obtain ⟨before, after, split, -⟩ := List.lookup_eq_some_iff.mp h
  rw [split]
  exact List.mem_append_right _ List.mem_cons_self

theorem reads : Reads ofJson? Document := by
  intro c j
  constructor
  · intro h
    unfold ofJson? at h
    split at h
    · cases h
      rfl
    · obtain ⟨tag, known, chosen⟩ := Json.choice?_eq_some_iff.mp h
      have known := mem_named_of_ofTag? known
      simp only [named, List.mem_cons, Prod.mk.injEq, List.not_mem_nil, or_false] at known
      obtain ⟨rfl, rfl⟩ | ⟨rfl, rfl⟩ | ⟨rfl, rfl⟩ | ⟨rfl, rfl⟩ := known <;> exact chosen
  · cases c with
    | custom name =>
      rintro rfl
      rfl
    | _ => rintro (rfl | rfl) <;> rfl

end Collation

namespace Property

def fields (p : Property) : List Field :=
  [.required "category" p.category.Document, .required "nullable" (Json.Flag p.nullable)]

def Document (p : Property) : Json → Prop := Structure p.fields

theorem document_toJson (p : Property) : p.Document p.toJson :=
  .ofMembers (.written p.category.document_toJson (.written rfl .nil))

theorem ofFields?_eq_some_iff (p : Property) (found : List (Option Json)) :
    ofFields? found = some p ↔ List.Forall₂ Field.Holds p.fields found := by
  fun_cases ofFields? found with
  | case1 category nullable =>
    simp only [fields, List.forall₂_cons, Category.reads.required, Reads.flag.required,
      Option.bind_eq_bind, Option.bind_eq_some_iff, Option.some.injEq]
    constructor
    · rintro ⟨_, category, _, nullable, rfl⟩
      exact ⟨category, nullable, .nil⟩
    · rintro ⟨category, nullable, -⟩
      exact ⟨_, category, _, nullable, rfl⟩
  | case2 _ others => exact iff_of_false nofun fun | .cons _ (.cons _ .nil) => others _ _ rfl

theorem reads : Reads ofJson? Document := .ofFields (fun _ => rfl) (by decide) ofFields?_eq_some_iff

end Property

namespace DefaultValue

def fields (d : DefaultValue) : List Field :=
  [.required "value" (Json.Text d.text), .required "category" d.category.Document]

def Document (d : DefaultValue) : Json → Prop := Structure d.fields

theorem document_toJson (d : DefaultValue) : d.Document d.toJson :=
  .ofMembers (.written rfl (.written d.category.document_toJson .nil))

theorem ofFields?_eq_some_iff (d : DefaultValue) (found : List (Option Json)) :
    ofFields? found = some d ↔ List.Forall₂ Field.Holds d.fields found := by
  fun_cases ofFields? found with
  | case1 value category =>
    simp only [fields, List.forall₂_cons, Reads.text.required, Category.reads.required,
      Option.bind_eq_bind, Option.bind_eq_some_iff, Option.some.injEq]
    constructor
    · rintro ⟨_, value, _, category, rfl⟩
      exact ⟨value, category, .nil⟩
    · rintro ⟨value, category, -⟩
      exact ⟨_, value, _, category, rfl⟩
  | case2 _ others => exact iff_of_false nofun fun | .cons _ (.cons _ .nil) => others _ _ rfl

theorem reads : Reads ofJson? Document := .ofFields (fun _ => rfl) (by decide) ofFields?_eq_some_iff

end DefaultValue

namespace Column

def fields (c : Column) : List Field :=
  [.required "name" (Json.Text c.name), .required "type" c.property.Document,
    .defaulted "primaryKey" false Json.Flag c.primaryKey,
    .defaulted "unique" false Json.Flag c.unique,
    .defaulted "autoincrement" false Json.Flag c.autoincrement,
    .defaulted "collation" .standard Collation.Document c.collation,
    .defaulted "required" false Json.Flag c.required,
    .defaulted "default" none (Optional DefaultValue.Document) c.default]

def Document (c : Column) : Json → Prop := Structure c.fields

theorem document_toJson (c : Column) : c.Document c.toJson := by
  have default : Optional DefaultValue.Document c.default
      ((c.default.map DefaultValue.toJson).getD .null) := by
    cases c.default with
    | none => rfl
    | some d => exact d.document_toJson
  exact .ofMembers <| .written rfl <| .written c.property.document_toJson <| .written rfl <|
    .written rfl <| .written rfl <| .written c.collation.document_toJson <| .written rfl <|
    .written default .nil

theorem ofFields?_eq_some_iff (c : Column) (found : List (Option Json)) :
    ofFields? found = some c ↔ List.Forall₂ Field.Holds c.fields found := by
  fun_cases ofFields? found with
  | case1 name property primaryKey unique autoincrement collation required default =>
    simp only [fields, List.forall₂_cons, Reads.text.required, Property.reads.required,
      Reads.flag.defaulted, Collation.reads.defaulted, (DefaultValue.reads.optional rfl).defaulted,
      Option.bind_eq_bind, Option.bind_eq_some_iff, Option.some.injEq]
    constructor
    · rintro ⟨_, name, _, property, _, primaryKey, _, unique, _, autoincrement, _, collation, _,
        required, _, default, rfl⟩
      exact ⟨name, property, primaryKey, unique, autoincrement, collation, required, default, .nil⟩
    · rintro ⟨name, property, primaryKey, unique, autoincrement, collation, required, default, -⟩
      exact ⟨_, name, _, property, _, primaryKey, _, unique, _, autoincrement, _, collation, _,
        required, _, default, rfl⟩
  | case2 _ others =>
    exact iff_of_false nofun fun
      | .cons _ (.cons _ (.cons _ (.cons _ (.cons _ (.cons _ (.cons _ (.cons _ .nil))))))) =>
        others _ _ _ _ _ _ _ _ rfl

theorem reads : Reads ofJson? Document := .ofFields (fun _ => rfl) (by decide) ofFields?_eq_some_iff

end Column

namespace UniqueGroup

def fields (u : UniqueGroup) : List Field :=
  [.required "name" (Json.Text u.name), .required "columns" (Listed Json.Text u.columns)]

def Document (u : UniqueGroup) : Json → Prop := Structure u.fields

theorem document_toJson (u : UniqueGroup) : u.Document u.toJson :=
  .ofMembers (.written rfl (.written (.map Json.text_string u.columns) .nil))

theorem ofFields?_eq_some_iff (u : UniqueGroup) (found : List (Option Json)) :
    ofFields? found = some u ↔ List.Forall₂ Field.Holds u.fields found := by
  fun_cases ofFields? found with
  | case1 name columns =>
    simp only [fields, List.forall₂_cons, Reads.text.required, Reads.text.list.required,
      Option.bind_eq_bind, Option.bind_eq_some_iff, Option.some.injEq]
    constructor
    · rintro ⟨_, name, _, columns, rfl⟩
      exact ⟨name, columns, .nil⟩
    · rintro ⟨name, columns, -⟩
      exact ⟨_, name, _, columns, rfl⟩
  | case2 _ others => exact iff_of_false nofun fun | .cons _ (.cons _ .nil) => others _ _ rfl

theorem reads : Reads ofJson? Document := .ofFields (fun _ => rfl) (by decide) ofFields?_eq_some_iff

end UniqueGroup

namespace ForeignKey

def fields (k : ForeignKey) : List Field :=
  [.required "columns" (Listed Json.Text k.columns), .required "tableTo" (Json.Text k.parent),
    .required "columnsTo" (Listed Json.Text k.parentColumns),
    .defaulted "onUpdate" .noAction ReferentialAction.Document k.onUpdate,
    .defaulted "onDelete" .noAction ReferentialAction.Document k.onDelete]

def Document (k : ForeignKey) : Json → Prop := Structure k.fields

theorem document_toJson (k : ForeignKey) : k.Document k.toJson :=
  .ofMembers <| .written (.map Json.text_string k.columns) <| .written rfl <|
    .written (.map Json.text_string k.parentColumns) <| .written k.onUpdate.document_toJson <|
    .written k.onDelete.document_toJson .nil

theorem ofFields?_eq_some_iff (k : ForeignKey) (found : List (Option Json)) :
    ofFields? found = some k ↔ List.Forall₂ Field.Holds k.fields found := by
  fun_cases ofFields? found with
  | case1 columns parent parentColumns onUpdate onDelete =>
    simp only [fields, List.forall₂_cons, Reads.text.required, Reads.text.list.required,
      ReferentialAction.reads.defaulted, Option.bind_eq_bind, Option.bind_eq_some_iff,
      Option.some.injEq]
    constructor
    · rintro ⟨_, columns, _, parent, _, parentColumns, _, onUpdate, _, onDelete, rfl⟩
      exact ⟨columns, parent, parentColumns, onUpdate, onDelete, .nil⟩
    · rintro ⟨columns, parent, parentColumns, onUpdate, onDelete, -⟩
      exact ⟨_, columns, _, parent, _, parentColumns, _, onUpdate, _, onDelete, rfl⟩
  | case2 _ others =>
    exact iff_of_false nofun fun
      | .cons _ (.cons _ (.cons _ (.cons _ (.cons _ .nil)))) => others _ _ _ _ _ rfl

theorem reads : Reads ofJson? Document := .ofFields (fun _ => rfl) (by decide) ofFields?_eq_some_iff

end ForeignKey

namespace Table

def fields (t : Table) : List Field :=
  [.required "name" (Json.Text t.name), .required "columns" (Listed Column.Document t.columns),
    .defaulted "compositePrimaryKey" [] (Listed Json.Text) t.compositeKey,
    .defaulted "uniqueConstraints" [] (Listed UniqueGroup.Document) t.uniques,
    .defaulted "foreignKeys" [] (Listed ForeignKey.Document) t.foreignKeys,
    .defaulted "withoutRowid" false Json.Flag t.withoutRowid]

def Document (t : Table) : Json → Prop := Structure t.fields

theorem document_toJson (t : Table) : t.Document t.toJson := by
  have last : Json.Members [.defaulted "withoutRowid" false Json.Flag t.withoutRowid]
      (if t.withoutRowid then [("withoutRowid", .bool true)] else []) := by
    cases t.withoutRowid with
    | false => exact .omitted rfl .nil
    | true => exact .written rfl .nil
  exact .ofMembers <| .written rfl <| .written (.map Column.document_toJson t.columns) <|
    .written (.map Json.text_string t.compositeKey) <|
    .written (.map UniqueGroup.document_toJson t.uniques) <|
    .written (.map ForeignKey.document_toJson t.foreignKeys) last

theorem ofFields?_eq_some_iff (t : Table) (found : List (Option Json)) :
    ofFields? found = some t ↔ List.Forall₂ Field.Holds t.fields found := by
  fun_cases ofFields? found with
  | case1 name columns compositeKey uniques foreignKeys withoutRowid =>
    simp only [fields, List.forall₂_cons, Reads.text.required, Column.reads.list.required,
      Reads.text.list.defaulted, UniqueGroup.reads.list.defaulted, ForeignKey.reads.list.defaulted,
      Reads.flag.defaulted, Option.bind_eq_bind, Option.bind_eq_some_iff, Option.some.injEq]
    constructor
    · rintro ⟨_, name, _, columns, _, compositeKey, _, uniques, _, foreignKeys, _, withoutRowid, rfl⟩
      exact ⟨name, columns, compositeKey, uniques, foreignKeys, withoutRowid, .nil⟩
    · rintro ⟨name, columns, compositeKey, uniques, foreignKeys, withoutRowid, -⟩
      exact ⟨_, name, _, columns, _, compositeKey, _, uniques, _, foreignKeys, _, withoutRowid, rfl⟩
  | case2 _ others =>
    exact iff_of_false nofun fun
      | .cons _ (.cons _ (.cons _ (.cons _ (.cons _ (.cons _ .nil))))) => others _ _ _ _ _ _ rfl

theorem reads : Reads ofJson? Document := .ofFields (fun _ => rfl) (by decide) ofFields?_eq_some_iff

/-- A description is read from its own document, and from the documents of any other spelling; from
no other document is it read. The table that is created from it does not depend on the spelling. -/
theorem decodes_iff_document (t : Table) :
    ofJson? t.toJson = some t ∧ (∀ j, ofJson? j = some t ↔ t.Document j) ∧
      ∀ j, t.Document j → ∀ options,
        (ofJson? j).map (createText · options) = some (t.createText options) := by
  refine ⟨(reads t _).mpr t.document_toJson, reads t, ?_⟩
  intro j spelled options
  rw [(reads t j).mpr spelled, Option.map_some]

def invoices : Table :=
  { name := "invoices"
    columns :=
      [{ Column.plain "id" ⟨.int .i64, false⟩ with primaryKey := true },
        { Column.plain "note" ⟨.text, true⟩ with
          collation := .noCase, default := some ⟨"none", .text⟩ }]
    compositeKey := []
    uniques := [⟨"one_note", ["id", "note"]⟩]
    foreignKeys := [⟨["id"], "orders", ["id"], .noAction, .setNull⟩]
    withoutRowid := false }

/-- Members out of order and one of no field, arrays without their last elements, a choice as an
object, and defaults that are not written. -/
def invoicesDocument : Json :=
  .object
    [("columns", .array
        [.array [.string "id", .array [.string "i64", .bool false], .bool true],
          .object
            [("default", .array [.string "none", .string "text"]), ("name", .string "note"),
              ("collation", .object [("no_case", .null)]),
              ("type", .object [("nullable", .bool true), ("category", .string "text")])]]),
      ("version", .number 2 0),
      ("foreignKeys", .array
        [.object
          [("onDelete", .string "set_null"), ("tableTo", .string "orders"),
            ("columns", .array [.string "id"]), ("columnsTo", .array [.string "id"])]]),
      ("uniqueConstraints", .array
        [.array [.string "one_note", .array [.string "id", .string "note"]]]),
      ("name", .string "invoices")]

theorem decodes_iff_document_invoices :
    invoices.Document invoicesDocument ∧
      (ofJson? invoicesDocument).map (createText · .none) = some (invoices.createText .none) := by
  obtain ⟨-, documents, same⟩ := decodes_iff_document invoices
  have spelled : invoices.Document invoicesDocument := (documents invoicesDocument).mp (by rfl)
  exact ⟨spelled, same invoicesDocument spelled .none⟩

end Table

end TypedSql
