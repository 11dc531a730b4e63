import Formulary.Calendar.Day
import Formulary.Calendar.Instant
import Formulary.Calendar.Reading
import Formulary.Command
import Formulary.Document
import Formulary.Document.Fault
import Formulary.Document.Reading
import Formulary.Document.Roster
import Formulary.Engine
import Formulary.Evaluation
import Formulary.Expr
import Formulary.Expr.Eval
import Formulary.Expr.Parser
import Formulary.Fault
import Formulary.Field
import Formulary.Functions.Argument
import Formulary.Functions.Collection
import Formulary.Functions.Date
import Formulary.Functions.Logic
import Formulary.Functions.Numeric
import Formulary.Functions.Text
import Formulary.Graph
import Formulary.Graph.Components
import Formulary.Graph.Cycles
import Formulary.Host
import Formulary.Json
import Formulary.Ledger
import Formulary.Main
import Formulary.Memo
import Formulary.Names.Entries
import Formulary.Names.Map
import Formulary.Names.Set
import Formulary.Number.Arithmetic
import Formulary.Number.Basic
import Formulary.Number.Decimal
import Formulary.Number.Layout
import Formulary.Number.Reading
import Formulary.Operators
import Formulary.ParseFailure
import Formulary.Path
import Formulary.Path.Selection
import Formulary.Proofs.Accepted
import Formulary.Proofs.Aggregates
import Formulary.Proofs.Alpha
import Formulary.Proofs.Applied
import Formulary.Proofs.Aside
import Formulary.Proofs.Assigned
import Formulary.Proofs.Barred
import Formulary.Proofs.Braced
import Formulary.Proofs.Budget
import Formulary.Proofs.Builtins
import Formulary.Proofs.Calendar
import Formulary.Proofs.Calls
import Formulary.Proofs.Circles
import Formulary.Proofs.Closed
import Formulary.Proofs.Columns
import Formulary.Proofs.Connectives
import Formulary.Proofs.Constants
import Formulary.Proofs.Dates
import Formulary.Proofs.Dependents
import Formulary.Proofs.Depth
import Formulary.Proofs.Derived
import Formulary.Proofs.Determined
import Formulary.Proofs.Display
import Formulary.Proofs.Evaluated
import Formulary.Proofs.Exact
import Formulary.Proofs.Failing
import Formulary.Proofs.Faultless
import Formulary.Proofs.FinishOrder
import Formulary.Proofs.Flattening
import Formulary.Proofs.FreeRoots
import Formulary.Proofs.Given
import Formulary.Proofs.Grammar
import Formulary.Proofs.Groups
import Formulary.Proofs.InProgress
import Formulary.Proofs.InStep
import Formulary.Proofs.Integers
import Formulary.Proofs.Limits
import Formulary.Proofs.Listings
import Formulary.Proofs.Lookups
import Formulary.Proofs.Mappings
import Formulary.Proofs.Mention
import Formulary.Proofs.Mirror
import Formulary.Proofs.MonthSteps
import Formulary.Proofs.Names
import Formulary.Proofs.Nested
import Formulary.Proofs.NumericTexts
import Formulary.Proofs.Observation
import Formulary.Proofs.Occurrences
import Formulary.Proofs.Operations
import Formulary.Proofs.Overflow
import Formulary.Proofs.OwnResults
import Formulary.Proofs.Owner
import Formulary.Proofs.Parsed
import Formulary.Proofs.Parsing
import Formulary.Proofs.PathText
import Formulary.Proofs.Pathwise
import Formulary.Proofs.Planned
import Formulary.Proofs.Positions
import Formulary.Proofs.Provenance
import Formulary.Proofs.PushOrder
import Formulary.Proofs.Questions
import Formulary.Proofs.Reach
import Formulary.Proofs.ReadThrough
import Formulary.Proofs.Rebuilt
import Formulary.Proofs.Recall
import Formulary.Proofs.Refreshed
import Formulary.Proofs.Reindexed
import Formulary.Proofs.Renamed
import Formulary.Proofs.Repeated
import Formulary.Proofs.Reported
import Formulary.Proofs.Representatives
import Formulary.Proofs.Rings
import Formulary.Proofs.Run
import Formulary.Proofs.Schedule
import Formulary.Proofs.Searching
import Formulary.Proofs.Sessions
import Formulary.Proofs.Settled
import Formulary.Proofs.Sorting
import Formulary.Proofs.Spelling
import Formulary.Proofs.Splicing
import Formulary.Proofs.Targeted
import Formulary.Proofs.Tarjan
import Formulary.Proofs.Told
import Formulary.Proofs.Tracked
import Formulary.Proofs.Transparency
import Formulary.Proofs.Twins
import Formulary.Proofs.Uniform
import Formulary.Proofs.Unnested
import Formulary.Report
import Formulary.Session
import Formulary.Text.Alphabetic
import Formulary.Text.Blank
import Formulary.Text.CaseTable
import Formulary.Text.Casing
import Formulary.Text.Printable
import Formulary.Token
import Formulary.Token.Lexer
import Formulary.Value
import Formulary.Value.Date
import Formulary.Value.Text
import Formulary.Yaml
import Formulary.Yaml.Decode
import Formulary.Yaml.Lexeme
import Formulary.Yaml.Lexeme.Lexer
import Formulary.Yaml.Lexeme.Marks
import Formulary.Yaml.Node
import Formulary.Yaml.Node.Compose
import Formulary.Yaml.Scalar
import Formulary.Yaml.Scalar.Block
import Formulary.Yaml.Scalar.Plain
import Formulary.Yaml.Scalar.Quoted
import Formulary.Yaml.Spot
import Formulary.Yaml.Word
