import SqlKit.Ieee
import SqlKit.Value
import SqlKit.Args
import SqlKit.Error
import SqlKit.Text.AsciiCase
import SqlKit.Text.Quoted
import SqlKit.Text.CombiningMarks
import SqlKit.Text.Escaped
import SqlKit.Node.Basic
import SqlKit.Node.Recursion
import SqlKit.Build.Operand
import SqlKit.Build.Expression
import SqlKit.Build.Relation
import SqlKit.Build.Select
import SqlKit.Build.Script
import SqlKit.Render.Options
import SqlKit.Render.Slots
import SqlKit.Render.Template
import SqlKit.Render.Dialect
import SqlKit.Render.Session
import SqlKit.Postgres
import SqlKit.Row.ColumnType
import SqlKit.Row.Basic
import SqlKit.Row.Record
import SqlKit.Derive.Token
import SqlKit.Derive.Fields
import SqlKit.Derive.Expand
import SqlKit.Proofs.Node.Gather
import SqlKit.Proofs.Text.Placeholder
import SqlKit.Proofs.Render.Emission
import SqlKit.Proofs.Render.Numbering
import SqlKit.Proofs.Postgres.Placeholder
import SqlKit.Proofs.Render.InPlace
import SqlKit.Proofs.Postgres.Inline
import SqlKit.Proofs.Postgres.Outline
import SqlKit.Proofs.Postgres.Expression
import SqlKit.Proofs.Postgres.Reading
import SqlKit.Proofs.Postgres.Conjunction
import SqlKit.Proofs.Postgres.Failure
import SqlKit.Proofs.Render.Ledger
import SqlKit.Proofs.Node.Frame
import SqlKit.Proofs.Postgres.Subquery
import SqlKit.Proofs.Render.Offset
import SqlKit.Proofs.Render.LineBreak
import SqlKit.Proofs.Postgres.Characters
import SqlKit.Proofs.Postgres.LineBreak
import SqlKit.Proofs.Postgres.Offset
import SqlKit.Proofs.Build.WellFormed
import SqlKit.Proofs.Derive.StructBody
import SqlKit.Proofs.Derive.NamelessColon
import SqlKit.Proofs.Text.StringLiteral
import SqlKit.Proofs.Derive.Outcome
import SqlKit.Proofs.Build.Steps
import SqlKit.Proofs.Postgres.Quoting
import SqlKit.Proofs.Postgres.TextOnly
import SqlKit.Proofs.Render.Extension
import SqlKit.Proofs.Postgres.Extension
import SqlKit.Proofs.Postgres.Membership
import SqlKit.Proofs.Text.Vocabulary
import SqlKit.Proofs.Postgres.Shorthand
import SqlKit.Proofs.Text.Identifier
import SqlKit.Proofs.Postgres.ColumnReference
import SqlKit.Proofs.Postgres.Relation
import SqlKit.Proofs.Row.Lookup
import SqlKit.Proofs.Row.Widening
import SqlKit.Proofs.Row.FirstFailure
import SqlKit.Proofs.Row.NamedColumns
import SqlKit.Proofs.Row.RoundTrip
