import TypedSql.Condition.Compile
import TypedSql.Table.Build
import TypedSql.Definition
import TypedSql.Cell.ConversionError

/-! All that can go wrong between a description or a value and the database. -/
namespace TypedSql

open Numeric

inductive StatementError where
  | invalidParameterName (name : String)
  | unstorable (fault : RangeFault)
  | returnedRows
  deriving DecidableEq, Repr

def StatementError.message : StatementError → String
  | .invalidParameterName name => "Invalid parameter name: " ++ name
  | .unstorable fault => fault.message
  | .returnedRows => "Execute returned results - did you mean to call query?"

inductive Error where
  | unsupportedType (cause : UnsupportedType)
  | malformed (cause : MalformedComparison)
  | table (cause : TableError)
  | conversion (cause : ConversionError)
  | statement (cause : StatementError)
  deriving DecidableEq, Repr

def Error.message : Error → String
  | .unsupportedType cause => cause.message
  | .malformed cause => cause.message
  | .table cause => "Schema error: " ++ cause.message
  | .conversion cause => "Conversion error: " ++ cause.message
  | .statement cause => "Rusqlite error: " ++ cause.message

end TypedSql
