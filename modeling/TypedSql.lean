import TypedSql.Catalog
import TypedSql.Proofs.Calendar.Reading
import TypedSql.Proofs.Cell.Integers
import TypedSql.Proofs.Cell.Storage
import TypedSql.Proofs.Cell.TextBytes
import TypedSql.Proofs.Cell.WriteBack
import TypedSql.Proofs.Command.Rows
import TypedSql.Proofs.Condition.Dangling
import TypedSql.Proofs.Condition.Interchange
import TypedSql.Proofs.Condition.Precedence
import TypedSql.Proofs.Condition.Spelling
import TypedSql.Proofs.Condition.Splitting
import TypedSql.Proofs.Decimal.Reading
import TypedSql.Proofs.Definition.Columns
import TypedSql.Proofs.Definition.Defaults
import TypedSql.Proofs.Definition.Faults
import TypedSql.Proofs.Definition.Keys
import TypedSql.Proofs.Definition.Rowid
import TypedSql.Proofs.Numeric.Widening
import TypedSql.Proofs.Parameter.Journal
import TypedSql.Proofs.Row
import TypedSql.Proofs.Sql.Quoting
import TypedSql.Proofs.Table.Document
import TypedSql.Proofs.Text.Identifier
import TypedSql.Proofs.Uuid
import TypedSql.Proofs.Value.Stored
