import LogConsole.Capture
import LogConsole.Command
import LogConsole.CommandLine
import LogConsole.Config
import LogConsole.Context
import LogConsole.Csv
import LogConsole.Dict
import LogConsole.Disk
import LogConsole.Expansion
import LogConsole.Failure
import LogConsole.Help
import LogConsole.Host
import LogConsole.Json.Reader
import LogConsole.Json.Value
import LogConsole.LineValue
import LogConsole.LogStore.Basic
import LogConsole.LogStore.Schema
import LogConsole.Main
import LogConsole.Message.Basic
import LogConsole.Message.Render
import LogConsole.Message.Wire
import LogConsole.MessageFormat
import LogConsole.Mode
import LogConsole.Number.Shortest
import LogConsole.Number.Text
import LogConsole.Path
import LogConsole.Pattern.Basic
import LogConsole.Pattern.CharSet
import LogConsole.Pattern.Reader
import LogConsole.Program
import LogConsole.Proofs.Context.Outputs
import LogConsole.Proofs.Dict
import LogConsole.Proofs.Disk.Locations
import LogConsole.Proofs.Disk.Obstacles
import LogConsole.Proofs.Disk.Spelling
import LogConsole.Proofs.Disk.Tree
import LogConsole.Proofs.Disk.Visit
import LogConsole.Proofs.Expansion.DoubleQuotes
import LogConsole.Proofs.Expansion.Grammar
import LogConsole.Proofs.Expansion.Literal
import LogConsole.Proofs.Expansion.Quoting
import LogConsole.Proofs.Json.Printable
import LogConsole.Proofs.Json.ReadBack
import LogConsole.Proofs.Json.Sorting
import LogConsole.Proofs.LogStore.Copying
import LogConsole.Proofs.LogStore.Indexing
import LogConsole.Proofs.LogStore.Ingestion
import LogConsole.Proofs.LogStore.Migration
import LogConsole.Proofs.LogStore.Registration
import LogConsole.Proofs.LogStore.Rotation
import LogConsole.Proofs.LogStore.Schema
import LogConsole.Proofs.LogStore.Tables
import LogConsole.Proofs.LogStore.Texts
import LogConsole.Proofs.Message.Styles
import LogConsole.Proofs.Message.Wire
import LogConsole.Proofs.MessageFormat.Masking
import LogConsole.Proofs.MessageFormat.NormalForm
import LogConsole.Proofs.MessageFormat.NumberValues
import LogConsole.Proofs.MessageFormat.Patterns
import LogConsole.Proofs.Number.Packing
import LogConsole.Proofs.Number.RoundTrip
import LogConsole.Proofs.Number.Rounding
import LogConsole.Proofs.Number.Scientific
import LogConsole.Proofs.Number.Shortest
import LogConsole.Proofs.Program.Batch
import LogConsole.Proofs.Program.Completeness
import LogConsole.Proofs.Program.ScriptOption
import LogConsole.Proofs.Query.Aligned
import LogConsole.Proofs.Query.Binding
import LogConsole.Proofs.Query.Failure
import LogConsole.Proofs.Script.Fallback
import LogConsole.Proofs.Script.Index
import LogConsole.Proofs.Script.Overlap
import LogConsole.Proofs.Session.Acts
import LogConsole.Proofs.Session.Callers
import LogConsole.Proofs.Session.Descent
import LogConsole.Proofs.Session.DryRun
import LogConsole.Proofs.Session.FailedQuery
import LogConsole.Proofs.Session.Faults
import LogConsole.Proofs.Session.FirstRow
import LogConsole.Proofs.Session.Frames
import LogConsole.Proofs.Session.InTurn
import LogConsole.Proofs.Session.Isolation
import LogConsole.Proofs.Session.JsonExport
import LogConsole.Proofs.Session.Listing
import LogConsole.Proofs.Session.Parts
import LogConsole.Proofs.Session.Provenance
import LogConsole.Proofs.Session.Reachable
import LogConsole.Proofs.Session.ReadOnly
import LogConsole.Proofs.Session.Results
import LogConsole.Proofs.Session.RunOrder
import LogConsole.Proofs.Session.Sharing
import LogConsole.Proofs.Session.SingleLine
import LogConsole.Proofs.Session.Sinks
import LogConsole.Proofs.Session.Statements
import LogConsole.Proofs.Session.Stdin
import LogConsole.Proofs.Session.Visits
import LogConsole.Proofs.Sql.Creation
import LogConsole.Proofs.Sql.Parsed
import LogConsole.Proofs.Sql.Raising
import LogConsole.Proofs.Sql.RaisingChanges
import LogConsole.Proofs.Sql.ReadOnly
import LogConsole.Proofs.Sql.Reading
import LogConsole.Proofs.Sql.Regular
import LogConsole.Proofs.Sql.Tables
import LogConsole.Proofs.Sql.Widths
import LogConsole.Proofs.Text.ByteOrder
import LogConsole.Proofs.Text.Utf8
import LogConsole.Proofs.Toml.Distinct
import LogConsole.Query.Binding
import LogConsole.Query.Collector
import LogConsole.Query.Failure
import LogConsole.Report
import LogConsole.ResultSet
import LogConsole.Script.Candidate
import LogConsole.Script.Resolver
import LogConsole.Session.Basic
import LogConsole.Session.Command
import LogConsole.Session.Dispatch
import LogConsole.Session.Query
import LogConsole.Session.Script
import LogConsole.Shell.Run
import LogConsole.Shell.Syntax
import LogConsole.Shell.Utility
import LogConsole.Sql.Action
import LogConsole.Sql.Arithmetic
import LogConsole.Sql.Database
import LogConsole.Sql.Parser
import LogConsole.Sql.Plan
import LogConsole.Sql.Prepared
import LogConsole.Sql.Query
import LogConsole.Sql.Scope
import LogConsole.Sql.Syntax
import LogConsole.Sql.Term
import LogConsole.Sql.Token
import LogConsole.Sql.Value
import LogConsole.Stack
import LogConsole.Text.Blank
import LogConsole.Text.Category
import LogConsole.Text.CategoryTable
import LogConsole.Text.Lines
import LogConsole.Text.Utf8
import LogConsole.Toml.Reader
import LogConsole.Toml.Scalar
import LogConsole.Toml.Table
import LogConsole.Toml.Writer
import LogConsole.Words
import LogConsole.World
import LogConsole.Proofs.Config.Globals
import LogConsole.Proofs.Toml.Strings
import LogConsole.Proofs.Toml.Documents
import LogConsole.Proofs.Config.RoundTrip
import LogConsole.Proofs.Context.Delivery
import LogConsole.Proofs.Csv.Grammar
import LogConsole.Proofs.Session.CsvExport
import LogConsole.Proofs.Session.Delivery
