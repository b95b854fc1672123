import BoundSql.Declaration.Mapping
import BoundSql.Expr.Construct
import BoundSql.Proofs.Accounting
import BoundSql.Proofs.Alike
import BoundSql.Proofs.AlikeExpression
import BoundSql.Proofs.AlikeStatement
import BoundSql.Proofs.AlikeTemplate
import BoundSql.Proofs.AlphaRenaming
import BoundSql.Proofs.Assembly
import BoundSql.Proofs.Automaton
import BoundSql.Proofs.Batches
import BoundSql.Proofs.Binding
import BoundSql.Proofs.Borrowing
import BoundSql.Proofs.BoundStatement
import BoundSql.Proofs.BoundTimestamps
import BoundSql.Proofs.Calls
import BoundSql.Proofs.Claiming
import BoundSql.Proofs.Closed
import BoundSql.Proofs.Composition
import BoundSql.Proofs.Condition
import BoundSql.Proofs.ConsecutiveTemplates
import BoundSql.Proofs.Conversions
import BoundSql.Proofs.Cutting
import BoundSql.Proofs.Descriptions
import BoundSql.Proofs.Dispatch
import BoundSql.Proofs.EmbeddedStatement
import BoundSql.Proofs.Encoding
import BoundSql.Proofs.Equivalence
import BoundSql.Proofs.Expansion
import BoundSql.Proofs.FailedOperation
import BoundSql.Proofs.FilledSlots
import BoundSql.Proofs.ForgottenRows
import BoundSql.Proofs.Formatting
import BoundSql.Proofs.Grammar
import BoundSql.Proofs.HeldRows
import BoundSql.Proofs.Holdings
import BoundSql.Proofs.InsertStatement
import BoundSql.Proofs.IntegerWidths
import BoundSql.Proofs.Isolation
import BoundSql.Proofs.LabelLookups
import BoundSql.Proofs.LabeledRows
import BoundSql.Proofs.ListExpansion
import BoundSql.Proofs.Matching
import BoundSql.Proofs.Meaning
import BoundSql.Proofs.Names
import BoundSql.Proofs.NewBindings
import BoundSql.Proofs.Occurrence
import BoundSql.Proofs.OneStatement
import BoundSql.Proofs.Operation
import BoundSql.Proofs.Outline
import BoundSql.Proofs.PagedFetch
import BoundSql.Proofs.Patterns
import BoundSql.Proofs.PlainValues
import BoundSql.Proofs.Projections
import BoundSql.Proofs.Quoting
import BoundSql.Proofs.Received
import BoundSql.Proofs.Refinement
import BoundSql.Proofs.Renaming
import BoundSql.Proofs.Rendering
import BoundSql.Proofs.ReorderedRows
import BoundSql.Proofs.RepeatedUpdates
import BoundSql.Proofs.Rescanning
import BoundSql.Proofs.Sameness
import BoundSql.Proofs.Scanning
import BoundSql.Proofs.SelectList
import BoundSql.Proofs.Sending
import BoundSql.Proofs.Sequencing
import BoundSql.Proofs.Serving
import BoundSql.Proofs.Snapshots
import BoundSql.Proofs.Splitting
import BoundSql.Proofs.Suffixes
import BoundSql.Proofs.TemplateEnds
import BoundSql.Proofs.TextIndependence
import BoundSql.Proofs.TimestampText
import BoundSql.Proofs.Tokens
import BoundSql.Proofs.Transmission
import BoundSql.Proofs.Trimming
import BoundSql.Proofs.Tuples
import BoundSql.Proofs.UpdatePlaces
import BoundSql.Proofs.UpdateStatement
import BoundSql.Proofs.Visibility
import BoundSql.Proofs.Windows
import BoundSql.Proofs.World
import BoundSql.Query.Script
import BoundSql.Schema.Samples
import BoundSql.Session.Client
import BoundSql.Session.Tracking
import BoundSql.Text.Join
