import IntentPlan.Assoc
import IntentPlan.Audit
import IntentPlan.Batch
import IntentPlan.Batch.Gate
import IntentPlan.Batch.Summary
import IntentPlan.Command
import IntentPlan.Command.Arguments
import IntentPlan.Compilation
import IntentPlan.Config
import IntentPlan.Datum
import IntentPlan.Datum.Access
import IntentPlan.Datum.Compare
import IntentPlan.Datum.Frozen
import IntentPlan.Datum.Literal
import IntentPlan.Datum.Number
import IntentPlan.Decimal.Binary
import IntentPlan.Decimal.Layout
import IntentPlan.Decimal.Reader
import IntentPlan.Decimal.Shortest
import IntentPlan.Declaration
import IntentPlan.Declaration.Cursor
import IntentPlan.Declaration.Machine
import IntentPlan.Estimate
import IntentPlan.Evaluation
import IntentPlan.Files
import IntentPlan.Files.Path
import IntentPlan.Instant
import IntentPlan.Intent
import IntentPlan.Intent.Lowering
import IntentPlan.Journal
import IntentPlan.Json.Reader
import IntentPlan.Json.Writer
import IntentPlan.Main
import IntentPlan.Plan
import IntentPlan.Plan.Planner
import IntentPlan.Plan.Walk
import IntentPlan.Proofs.Acceptance
import IntentPlan.Proofs.Advancing
import IntentPlan.Proofs.Agreement
import IntentPlan.Proofs.Assoc
import IntentPlan.Proofs.Batching
import IntentPlan.Proofs.Blanking
import IntentPlan.Proofs.Casing
import IntentPlan.Proofs.Checking
import IntentPlan.Proofs.Composing
import IntentPlan.Proofs.Counting
import IntentPlan.Proofs.Coupling
import IntentPlan.Proofs.Cutting
import IntentPlan.Proofs.Delimiting
import IntentPlan.Proofs.Dependencies
import IntentPlan.Proofs.Documents
import IntentPlan.Proofs.Ending
import IntentPlan.Proofs.Erasure
import IntentPlan.Proofs.FileTree
import IntentPlan.Proofs.Filing
import IntentPlan.Proofs.Freezing
import IntentPlan.Proofs.Grammar
import IntentPlan.Proofs.Independence
import IntentPlan.Proofs.Joining
import IntentPlan.Proofs.Layout
import IntentPlan.Proofs.Lexicon
import IntentPlan.Proofs.Lifecycle
import IntentPlan.Proofs.Listing
import IntentPlan.Proofs.Literals
import IntentPlan.Proofs.Loading
import IntentPlan.Proofs.Loosening
import IntentPlan.Proofs.Lowercase
import IntentPlan.Proofs.Lowering
import IntentPlan.Proofs.Matching
import IntentPlan.Proofs.Naming
import IntentPlan.Proofs.Notices
import IntentPlan.Proofs.Numerals
import IntentPlan.Proofs.Ordering
import IntentPlan.Proofs.Outcome
import IntentPlan.Proofs.Parsing
import IntentPlan.Proofs.Planning
import IntentPlan.Proofs.Running
import IntentPlan.Proofs.Scanning
import IntentPlan.Proofs.Scheduling
import IntentPlan.Proofs.Selection
import IntentPlan.Proofs.Settings
import IntentPlan.Proofs.Shaping
import IntentPlan.Proofs.Sorting
import IntentPlan.Proofs.Stages
import IntentPlan.Proofs.Stopping
import IntentPlan.Proofs.Tiling
import IntentPlan.Proofs.Viability
import IntentPlan.Proofs.Walking
import IntentPlan.Release
import IntentPlan.Rule
import IntentPlan.Rule.Condition
import IntentPlan.Rule.Selection
import IntentPlan.Session
import IntentPlan.Sorting
import IntentPlan.Step
import IntentPlan.Step.Template
import IntentPlan.Strategy
import IntentPlan.Text.Blank
import IntentPlan.Text.Case
import IntentPlan.Text.CaseTable
import IntentPlan.Text.Digit
import IntentPlan.Text.Lines
import IntentPlan.Text.Printable
import IntentPlan.Text.Quoted
import IntentPlan.Text.Search
import IntentPlan.Text.Slug
import IntentPlan.Text.Span
import IntentPlan.Text.Utf8
import IntentPlan.Token
import IntentPlan.Token.Items
import IntentPlan.Token.Piece
import IntentPlan.Token.Scan
import IntentPlan.Toml
import IntentPlan.Toml.Fault
import IntentPlan.Toml.Nest
import IntentPlan.Toml.Plain
import IntentPlan.Toml.Quote
import IntentPlan.Toml.Reader
