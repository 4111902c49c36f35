import TypedSql.Command

/-! An engine with one table of cells without column types. Before a statement runs, each argument
is given to the name that it has in the statement; one that the statement does not name is an error,
and a name without an argument stands for NULL. -/
namespace TypedSql

def Statement.names : Statement → List String
  | .insert names => names
  | .selectParameters columns => columns.map (·.1)
  | .deleteAll | .selectAll => []

/-- The cells given to names, a later one in place of an earlier. -/
abbrev Assignment := List (String × Cell)

namespace Assignment

def cell (a : Assignment) (name : String) : Cell := (a.lookup name).getD .null

end Assignment

/-- Gives the arguments to the names of a statement, in order. A positional placeholder has no name
in any statement. -/
def Statement.assign (s : Statement) (given : Assignment) :
    List Argument → Except StatementError Assignment
  | [] => .ok given
  | (name, cell) :: rest =>
    if name ≠ Placeholder.positional.text ∧ name ∈ s.names then
      match cell with
      | .ok c => s.assign ((name, c.normalized) :: given) rest
      | .error fault => .error (.unstorable fault)
    else .error (.invalidParameterName name)

structure Database where
  width : Nat
  rows : List (List Cell)
  deriving DecidableEq, Repr

namespace Database

def columnNames (db : Database) : List String :=
  (List.range db.width).map fun i => "c" ++ toString i

/-- What a statement does to the table when its names have these cells. -/
def change (db : Database) (given : Assignment) : Statement → Except StatementError Nat × Database
  | .insert names => (.ok 1, { db with rows := db.rows ++ [names.map given.cell] })
  | .deleteAll => (.ok db.rows.length, { db with rows := [] })
  | .selectParameters _ | .selectAll => (.error .returnedRows, db)

def run (db : Database) (s : Statement) (arguments : List Argument) :
    Except StatementError Nat × Database :=
  match s.assign [] arguments with
  | .ok given => db.change given s
  | .error e => (.error e, db)

def select (db : Database) (given : Assignment) : Statement → Selection
  | .selectParameters columns => ⟨columns.map (·.2), [columns.map fun c => given.cell c.1]⟩
  | .selectAll => ⟨db.columnNames, db.rows⟩
  | .insert _ | .deleteAll => ⟨[], []⟩

def find (db : Database) (s : Statement) (arguments : List Argument) :
    Except StatementError Selection :=
  (s.assign [] arguments).map (db.select · s)

instance : Engine Database := ⟨run, find⟩

/-- A statement for its effect, with the table that it leaves where it does not fail. -/
def execute (db : Database) (s : Statement) (parameters : List Parameter) :
    Except StatementError (Nat × Database) :=
  let (answer, after) := Command.execute db s parameters
  answer.map (·, after)

def query (db : Database) (t : Table) (s : Statement) (parameters : List Parameter) :
    Except Error (List Record) :=
  Command.query db t s parameters

end Database

end TypedSql
