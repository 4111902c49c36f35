import TypedSql.Parameter
import TypedSql.Record
import TypedSql.Error
import TypedSql.Value.Stored

/-! Running statements with the parameters of a collection, on any engine. The engine is handed the
cell of each value under the name of its parameter, and what it finds becomes records. -/
namespace TypedSql

open Numeric

/-- The statements on a table. A list of names stands for the places where values go. -/
inductive Statement where
  | insert (names : List String)
  /-- One row of the parameters, each under a column name. -/
  | selectParameters (columns : List (String × String))
  | deleteAll
  | selectAll
  deriving DecidableEq, Repr

/-- What an engine is given under a name: a cell, or the fault of a value that has none. -/
abbrev Argument := String × Except RangeFault Cell

def Parameter.argument (p : Parameter) : Argument := (p.name, p.value.stored)

/-- The rows that a query finds, under the names of its columns. -/
structure Selection where
  columns : List String
  rows : List (List Cell)
  deriving DecidableEq, Repr

class Engine (δ : Type) where
  /-- Runs a statement for its effect; the answer tells how many rows it changed. -/
  execute : δ → Statement → List Argument → Except StatementError Nat × δ
  query : δ → Statement → List Argument → Except StatementError Selection

/-- The cell that reaches a table: a number that is none is stored as NULL. -/
def Cell.normalized : Cell → Cell
  | .real x => if x.isNaN then .null else .real x
  | c => c

/-- The records of rows, up to the first row that cannot be read. -/
def Table.readRows (t : Table) :
    List (List (String × Cell)) → Except ConversionError (List Record)
  | [] => .ok []
  | row :: rest => do
    let record ← t.readRow row
    let records ← t.readRows rest
    pure (record :: records)

namespace Command

variable {δ : Type} [Engine δ]

def execute (db : δ) (s : Statement) (parameters : List Parameter) :
    Except StatementError Nat × δ :=
  Engine.execute db s (parameters.map Parameter.argument)

def query (db : δ) (t : Table) (s : Statement) (parameters : List Parameter) :
    Except Error (List Record) := do
  let found ← (Engine.query db s (parameters.map Parameter.argument)).mapError .statement
  (t.readRows (found.rows.map (found.columns.zip ·))).mapError .conversion

end Command

end TypedSql
