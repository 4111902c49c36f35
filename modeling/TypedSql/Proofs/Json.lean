import Mathlib.Data.List.Perm.Basic
import TypedSql.Json
import TypedSql.Proofs.Outcome

/-! The spellings of a structure. An object may have its members in any order, with others among
them, and an array has the fields in order; an object leaves out any fields that have their
defaults, and an array the last of them. The readers accept these spellings and no others. -/
namespace TypedSql.Json

/-- A field of a structure that holds a certain value. -/
structure Field where
  name : String
  /-- The documents of the value. -/
  Written : Json → Prop
  /-- The value is the one that a missing field has. -/
  Omittable : Prop

namespace Field

def required (name : String) (Written : Json → Prop) : Field := ⟨name, Written, False⟩

def defaulted {α : Type} (name : String) (missing : α) (Written : α → Json → Prop) (x : α) :
    Field :=
  ⟨name, Written x, x = missing⟩

/-- What is found in the place of a field. -/
def Holds (f : Field) : Option Json → Prop
  | none => f.Omittable
  | some j => f.Written j

end Field

/-- The members of fields in order, some of those that have their defaults left out. -/
inductive Members : List Field → List (String × Json) → Prop
  | nil : Members [] []
  | written {f : Field} {fields : List Field} {j : Json} {members : List (String × Json)} :
      f.Written j → Members fields members → Members (f :: fields) ((f.name, j) :: members)
  | omitted {f : Field} {fields : List Field} {members : List (String × Json)} :
      f.Omittable → Members fields members → Members (f :: fields) members

/-- The elements of fields in order, up to a place behind which all have their defaults. -/
inductive Places : List Field → List Json → Prop
  | dropped {fields : List Field} : (∀ f ∈ fields, f.Omittable) → Places fields []
  | written {f : Field} {fields : List Field} {j : Json} {items : List Json} :
      f.Written j → Places fields items → Places (f :: fields) (j :: items)

inductive Structure (fields : List Field) : Json → Prop
  | object {known unknown members : List (String × Json)} :
      Members fields known → (∀ m ∈ unknown, m.1 ∉ fields.map Field.name) →
        members.Perm (known ++ unknown) → Structure fields (.object members)
  | array {items : List Json} : Places fields items → Structure fields (.array items)

section Objects

variable {fields : List Field} {members : List (String × Json)} {name : String}

theorem Structure.ofMembers (written : Members fields members) :
    Structure fields (.object members) :=
  .object written (List.forall_mem_nil _) (by rw [List.append_nil])

theorem member?_eq_some_iff {o : Option Json} :
    member? members name = some o ↔ members.filter (·.1 == name) = o.toList.map (name, ·) := by
  have named : ∀ m ∈ members.filter (·.1 == name), m.1 = name :=
    fun m member => eq_of_beq (List.mem_filter.mp member).2
  unfold member?
  generalize members.filter (·.1 == name) = found at named
  rcases found with _ | ⟨⟨first, j⟩, _ | ⟨second, rest⟩⟩
  · cases o <;> simp
  · obtain rfl : first = name := named _ List.mem_cons_self
    cases o <;> simp
  · cases o <;> simp

theorem filter_eq_nil_of_absent (absent : ∀ m ∈ members, m.1 ≠ name) :
    members.filter (·.1 == name) = [] := by
  rw [List.filter_eq_nil_iff]
  exact fun m member same => absent m member (eq_of_beq same)

theorem Members.name_mem (h : Members fields members) :
    ∀ m ∈ members, m.1 ∈ fields.map Field.name := by
  induction h with
  | nil => exact List.forall_mem_nil _
  | written _ _ ih =>
    rw [List.forall_mem_cons]
    exact ⟨List.mem_cons_self, fun m member => List.mem_cons_of_mem _ (ih m member)⟩
  | omitted _ _ ih => exact fun m member => List.mem_cons_of_mem _ (ih m member)

/-- A field is found among its members once, or not at all. -/
theorem Members.exists_holds (h : Members fields members)
    (distinct : (fields.map Field.name).Nodup) :
    ∀ f ∈ fields, ∃ o, f.Holds o ∧ members.filter (·.1 == f.name) = o.toList.map (f.name, ·) := by
  induction h with
  | nil => exact List.forall_mem_nil _
  | @written g rest j others written tail ih =>
    rw [List.map_cons, List.nodup_cons] at distinct
    intro f member
    rcases List.mem_cons.mp member with rfl | member
    · have absent : ∀ m ∈ others, m.1 ≠ f.name :=
        fun m member same => distinct.1 (same ▸ tail.name_mem m member)
      exact ⟨some j, written, by simp [filter_eq_nil_of_absent absent]⟩
    · have other : g.name ≠ f.name :=
        fun same => distinct.1 (same ▸ List.mem_map_of_mem member)
      obtain ⟨o, holds, found⟩ := ih distinct.2 f member
      exact ⟨o, holds, by rw [List.filter_cons_of_neg (by simpa using other), found]⟩
  | @omitted g rest others omittable tail ih =>
    rw [List.map_cons, List.nodup_cons] at distinct
    intro f member
    rcases List.mem_cons.mp member with rfl | member
    · have absent : ∀ m ∈ others, m.1 ≠ f.name :=
        fun m member same => distinct.1 (same ▸ tail.name_mem m member)
      exact ⟨none, omittable, filter_eq_nil_of_absent absent⟩
    · exact ih distinct.2 f member

theorem filter_mem_cons_perm (members : List (String × Json)) {names : List String}
    (fresh : name ∉ names) :
    (members.filter (·.1 ∈ name :: names)).Perm
      (members.filter (·.1 == name) ++ members.filter (·.1 ∈ names)) := by
  have split := List.filter_append_perm (·.1 == name) (members.filter (·.1 ∈ name :: names))
  rw [List.filter_filter, List.filter_filter] at split
  have first : ∀ m : String × Json,
      (m.1 == name && decide (m.1 ∈ name :: names)) = (m.1 == name) := by
    intro m
    by_cases same : m.1 = name <;> simp [same]
  have others : ∀ m : String × Json,
      (!(m.1 == name) && decide (m.1 ∈ name :: names)) = decide (m.1 ∈ names) := by
    intro m
    by_cases same : m.1 = name <;> simp [same, fresh]
  simp only [first, others] at split
  exact split.symm

/-- What is found for the fields are their members, in another order. -/
theorem exists_members (distinct : (fields.map Field.name).Nodup)
    (found : ∀ f ∈ fields, ∃ o, f.Holds o ∧
      members.filter (·.1 == f.name) = o.toList.map (f.name, ·)) :
    ∃ known, Members fields known ∧
      (members.filter (·.1 ∈ fields.map Field.name)).Perm known := by
  induction fields with
  | nil => exact ⟨[], .nil, by simp⟩
  | cons f rest ih =>
    rw [List.map_cons, List.nodup_cons] at distinct
    obtain ⟨⟨o, holds, first⟩, others⟩ := List.forall_mem_cons.mp found
    obtain ⟨known, tail, perm⟩ := ih distinct.2 others
    have split : (members.filter (·.1 ∈ f.name :: rest.map Field.name)).Perm
        (o.toList.map (f.name, ·) ++ known) := by
      have split := filter_mem_cons_perm members distinct.1
      rw [first] at split
      exact split.trans (perm.append_left _)
    cases o with
    | none => exact ⟨known, .omitted holds tail, split⟩
    | some j => exact ⟨(f.name, j) :: known, .written holds tail, split⟩

/-- An object is a spelling of the fields if and only if each of them is found in it. -/
theorem structure_object_iff (distinct : (fields.map Field.name).Nodup) :
    Structure fields (.object members) ↔
      ∀ f ∈ fields, ∃ o, f.Holds o ∧ member? members f.name = some o := by
  constructor
  · rintro (@⟨known, unknown, _, written, foreign, perm⟩)
    intro f member
    obtain ⟨o, holds, found⟩ := written.exists_holds distinct f member
    have absent : ∀ m ∈ unknown, m.1 ≠ f.name :=
      fun m known same => foreign m known (same ▸ List.mem_map_of_mem member)
    have found : (members.filter (·.1 == f.name)).Perm (o.toList.map (f.name, ·)) := by
      have parts := perm.filter (·.1 == f.name)
      rwa [List.filter_append, found, filter_eq_nil_of_absent absent, List.append_nil] at parts
    refine ⟨o, holds, member?_eq_some_iff.mpr ?_⟩
    cases o with
    | none => exact found.eq_nil
    | some j => exact found.eq_singleton
  · intro each
    simp only [member?_eq_some_iff] at each
    obtain ⟨known, written, perm⟩ := exists_members distinct each
    have split := List.filter_append_perm (·.1 ∈ fields.map Field.name) members
    apply Structure.object written ?_ (split.symm.trans (perm.append_right _))
    intro m member
    simpa using (List.mem_filter.mp member).2

end Objects

section Arrays

variable {fields : List Field} {items : List Json}

theorem places_nil_iff : Places fields [] ↔ ∀ f ∈ fields, f.Omittable := by
  constructor
  · rintro (h | _)
    exact h
  · exact .dropped

theorem places_cons_iff {f : Field} {j : Json} :
    Places (f :: fields) (j :: items) ↔ f.Written j ∧ Places fields items := by
  constructor
  · rintro (_ | ⟨written, tail⟩)
    exact ⟨written, tail⟩
  · exact fun h => .written h.1 h.2

theorem structure_array_iff : Structure fields (.array items) ↔ Places fields items :=
  ⟨fun | .array h => h, .array⟩

theorem exists_cons_iff {f : Field} {o : Option Json} {q : Option (List (Option Json))} :
    (∃ found, q.map (o :: ·) = some found ∧ List.Forall₂ Field.Holds (f :: fields) found) ↔
      f.Holds o ∧ ∃ found, q = some found ∧ List.Forall₂ Field.Holds fields found := by
  constructor
  · rintro ⟨_, made, held⟩
    obtain ⟨found, same, rfl⟩ := Option.map_eq_some_iff.mp made
    obtain ⟨first, others⟩ := List.forall₂_cons.mp held
    exact ⟨first, found, same, others⟩
  · rintro ⟨first, rest, rfl, others⟩
    exact ⟨o :: rest, rfl, .cons first others⟩

/-- An array is a spelling of the fields if and only if each place holds its field. -/
theorem places_iff :
    Places fields items ↔
      ∃ found, places? (fields.map Field.name) items = some found ∧
        List.Forall₂ Field.Holds fields found := by
  induction fields generalizing items with
  | nil =>
    cases items with
    | nil => exact ⟨fun _ => ⟨[], rfl, .nil⟩, fun _ => .dropped (List.forall_mem_nil _)⟩
    | cons j items => exact ⟨nofun, nofun⟩
  | cons f rest ih =>
    cases items with
    | nil =>
      rw [places_nil_iff, List.forall_mem_cons, ← places_nil_iff, ih]
      rw [List.map_cons, places?, exists_cons_iff]
      exact Iff.rfl
    | cons j items =>
      rw [places_cons_iff, ih]
      rw [List.map_cons, places?, exists_cons_iff]
      exact Iff.rfl

end Arrays

/-- The spellings of a structure are the documents in which each field is found. -/
theorem structure_iff {fields : List Field} (distinct : (fields.map Field.name).Nodup) {j : Json} :
    Structure fields j ↔
      ∃ found, j.fields? (fields.map Field.name) = some found ∧
        List.Forall₂ Field.Holds fields found := by
  cases j with
  | object members =>
    rw [structure_object_iff distinct, ← exists_forall₂_iff]
    simp only [fields?, mapM_eq_some_iff, List.forall₂_map_left_iff, forall₂_and_iff, and_comm]
  | array items => exact structure_array_iff.trans places_iff
  | null => exact ⟨nofun, nofun⟩
  | bool b => exact ⟨nofun, nofun⟩
  | number mantissa scale => exact ⟨nofun, nofun⟩
  | string s => exact ⟨nofun, nofun⟩

def Text (s : String) (j : Json) : Prop := j = .string s

theorem text_string (s : String) : Text s (.string s) := rfl

def Flag (b : Bool) (j : Json) : Prop := j = .bool b

/-- What is absent is a null. -/
def Optional {α : Type} (Written : α → Json → Prop) : Option α → Json → Prop
  | none, j => j = .null
  | some x, j => Written x j

/-- A list is an array of documents of its elements. -/
def Listed {α : Type} (Written : α → Json → Prop) (xs : List α) (j : Json) : Prop :=
  ∃ items, j = .array items ∧ List.Forall₂ Written xs items

theorem Listed.map {α : Type} {Written : α → Json → Prop} {write : α → Json}
    (written : ∀ x, Written x (write x)) (xs : List α) :
    Listed Written xs (.array (xs.map write)) := by
  refine ⟨_, rfl, ?_⟩
  rw [List.forall₂_map_right_iff, List.forall₂_same]
  exact fun x _ => written x

/-- A choice without payload is its name, or an object that gives the name a null. -/
def Choice (tag : String) (j : Json) : Prop := j = .string tag ∨ j = .object [(tag, .null)]

theorem choice?_eq_some_iff {α : Type} {ofTag? : String → Option α} {x : α} {j : Json} :
    choice? ofTag? j = some x ↔ ∃ tag, ofTag? tag = some x ∧ Choice tag j := by
  constructor
  · intro h
    unfold choice? at h
    split at h
    · exact ⟨_, h, Or.inl rfl⟩
    · exact ⟨_, h, Or.inr rfl⟩
    · cases h
  · rintro ⟨tag, known, rfl | rfl⟩ <;> exact known

/-- The reader accepts the documents of a value, each as that value, and nothing else. -/
def Reads {α : Type} (read : Json → Option α) (Written : α → Json → Prop) : Prop :=
  ∀ x j, read j = some x ↔ Written x j

namespace Reads

variable {α : Type} {read : Json → Option α} {Written : α → Json → Prop}

theorem text : Reads string? Text := by
  intro s j
  cases j <;> simp [string?, Text]

theorem flag : Reads bool? Flag := by
  intro b j
  cases j <;> simp [bool?, Flag]

/-- A choice that is found by its name, each by its own. -/
theorem choice {all : List α} {tag : α → String}
    (own : ∀ x, all.find? (tag · == tag x) = some x) :
    Reads (choice? fun t => all.find? (tag · == t)) (Choice <| tag ·) := by
  have tags : ∀ t x, all.find? (tag · == t) = some x ↔ t = tag x := by
    intro t x
    constructor
    · intro h
      have found := List.find?_some h
      exact (eq_of_beq found).symm
    · rintro rfl
      exact own x
  intro x j
  simp [choice?_eq_some_iff, tags]

theorem list (reads : Reads read Written) : Reads (list? read) (Listed Written) := by
  intro xs j
  cases j with
  | array items =>
    simp only [list?, mapM_eq_some_iff, reads _ _, Listed, Json.array.injEq, exists_eq_left']
    exact ⟨List.Forall₂.flip, List.Forall₂.flip⟩
  | _ => simp [list?, Listed]

theorem optional (reads : Reads read Written) (present : read .null = none) :
    Reads (optional? read) (Optional Written) := by
  intro o j
  cases o with
  | none => cases j <;> simp [optional?, Optional]
  | some x =>
    rw [Optional, ← reads]
    cases j <;> simp [optional?, present]

theorem required (reads : Reads read Written) {name : String} {x : α} {o : Option Json} :
    (Field.required name (Written x)).Holds o ↔ required? read o = some x := by
  cases o with
  | none => exact ⟨nofun, nofun⟩
  | some j => exact (reads x j).symm

theorem defaulted (reads : Reads read Written) {name : String} {missing x : α} {o : Option Json} :
    (Field.defaulted name missing Written x).Holds o ↔ defaulted? missing read o = some x := by
  cases o with
  | none => exact ⟨fun same => congrArg some same.symm, fun same => (Option.some.inj same).symm⟩
  | some j => exact (reads x j).symm

theorem ofFields {names : List String} {fields : α → List Field}
    {ofFields? : List (Option Json) → Option α} (named : ∀ x, (fields x).map Field.name = names)
    (distinct : names.Nodup)
    (reads : ∀ x found, ofFields? found = some x ↔ List.Forall₂ Field.Holds (fields x) found) :
    Reads (fun j => (j.fields? names).bind ofFields?) fun x => Structure (fields x) := by
  intro x j
  calc
    (j.fields? names).bind ofFields? = some x
    _ ↔ ∃ found, j.fields? names = some found ∧ ofFields? found = some x :=
      Option.bind_eq_some_iff
    _ ↔ ∃ found, j.fields? names = some found ∧ List.Forall₂ Field.Holds (fields x) found := by
      simp only [reads x]
    _ ↔ Structure (fields x) j := by
      rw [structure_iff (by rwa [named x]), named x]

end Reads

end TypedSql.Json
