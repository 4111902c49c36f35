import TypedSql.Table.Basic
import TypedSql.Cell.ReadCategory

/-! Records: the named values of one row. A row becomes a record by reading each cell by the
category of the column with its name; cells with other names are left out, and one cell that cannot
be read spoils the row. -/
namespace TypedSql

structure Record where
  fields : List (String × Value)
  deriving DecidableEq, Repr

namespace Record

def empty : Record := ⟨[]⟩

def push (r : Record) (name : String) (v : Value) : Record := ⟨r.fields ++ [(name, v)]⟩

def get? (r : Record) (name : String) : Option Value :=
  (r.fields.find? (·.1 == name)).map (·.2)

def length (r : Record) : Nat := r.fields.length

def isEmpty (r : Record) : Bool := r.fields.isEmpty

end Record

namespace Table

/-- The fields of a row, in its order. -/
def readFields (t : Table) : List (String × Cell) →
    Except ConversionError (List (String × Value))
  | [] => .ok []
  | (name, cell) :: rest =>
    match t.column? name with
    | none => readFields t rest
    | some column => do
      let v ← (Cell.read column.category cell).mapError (.inColumn name)
      let fields ← readFields t rest
      pure ((name, v) :: fields)

def readRow (t : Table) (row : List (String × Cell)) : Except ConversionError Record :=
  (t.readFields row).map (⟨·⟩)

end Table

end TypedSql
