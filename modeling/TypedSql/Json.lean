/-! JSON documents as data, and reading structures from them. A structure is an object whose members
are found by name, or an array of its fields in order. A member that no field claims is passed over;
a member that occurs twice, or an element behind the last field, makes the document invalid. -/
namespace TypedSql

inductive Json where
  | null
  | bool (b : Bool)
  /-- `mantissa / 10 ^ places` -/
  | number (mantissa : Int) (places : Nat)
  | string (s : String)
  | array (items : List Json)
  | object (members : List (String × Json))
  deriving Repr, Inhabited

namespace Json

def bool? : Json → Option Bool
  | .bool b => some b
  | _ => none

def string? : Json → Option String
  | .string s => some s
  | _ => none

def list? {α : Type} (read : Json → Option α) : Json → Option (List α)
  | .array items => items.mapM read
  | _ => none

def optional? {α : Type} (read : Json → Option α) : Json → Option (Option α)
  | .null => some none
  | j => (read j).map some

/-- A choice without payload: its name, or an object that gives the name a null. -/
def choice? {α : Type} (ofTag? : String → Option α) : Json → Option α
  | .string tag => ofTag? tag
  | .object [(tag, .null)] => ofTag? tag
  | _ => none

/-- The member of a name; none when there is none. A name that occurs twice has no answer. -/
def member? (members : List (String × Json)) (name : String) : Option (Option Json) :=
  match members.filter (·.1 == name) with
  | [] => some none
  | [(_, j)] => some (some j)
  | _ => none

/-- The elements of an array in the places of the fields. -/
def places? {β : Type} : List β → List Json → Option (List (Option Json))
  | [], [] => some []
  | [], _ :: _ => none
  | _ :: names, [] => (places? names []).map (none :: ·)
  | _ :: names, j :: items => (places? names items).map (some j :: ·)

/-- What a document holds for each field of a structure. -/
def fields? (names : List String) : Json → Option (List (Option Json))
  | .object members => names.mapM (member? members)
  | .array items => places? names items
  | _ => none

def required? {α : Type} (read : Json → Option α) (field : Option Json) : Option α :=
  field.bind read

/-- A field with a value of its own when it is missing. A null is not missing. -/
def defaulted? {α : Type} (missing : α) (read : Json → Option α) : Option Json → Option α
  | none => some missing
  | some j => read j

end Json

end TypedSql
