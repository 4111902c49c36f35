import TypedSql.Table.Build

/-! The tables of an application, by the name of the entity that each one stores. A description is
made when it is first asked for and kept from then on. -/
namespace TypedSql

/-- A kind of object that has a table, with the description of it. -/
structure Entity where
  key : String
  describe : Unit → Table

/-- The descriptions made so far, the latest first. -/
structure Catalog where
  made : List (String × Table)
  deriving DecidableEq, Repr

namespace Catalog

def empty : Catalog := ⟨[]⟩

def tableOf (c : Catalog) (e : Entity) : Table × Catalog :=
  match c.made.lookup e.key with
  | some t => (t, c)
  | none =>
    let t := e.describe ()
    (t, ⟨(e.key, t) :: c.made⟩)

def timesMade (c : Catalog) (e : Entity) : Nat := (c.made.filter (·.1 == e.key)).length

/-- A description that was made is the answer, and nothing is added. -/
theorem tableOf_of_lookup {c : Catalog} {e : Entity} {t : Table}
    (h : c.made.lookup e.key = some t) : c.tableOf e = (t, c) := by
  simp [tableOf, h]

theorem lookup_tableOf (c : Catalog) (e : Entity) :
    (c.tableOf e).2.made.lookup e.key = some (c.tableOf e).1 := by
  unfold tableOf
  split
  · assumption
  · exact List.lookup_cons_self

/-- Asking twice makes nothing new. -/
theorem tableOf_tableOf (c : Catalog) (e : Entity) :
    (c.tableOf e).2.tableOf e = c.tableOf e :=
  tableOf_of_lookup (lookup_tableOf c e)

end Catalog

end TypedSql
