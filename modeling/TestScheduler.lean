import TestScheduler.Cli.Action
import TestScheduler.Cli.Arguments
import TestScheduler.Cli.Program
import TestScheduler.Cli.Usage
import TestScheduler.Config.Basic
import TestScheduler.Config.Document
import TestScheduler.Config.Environment
import TestScheduler.Config.File
import TestScheduler.Config.Summary
import TestScheduler.Data.Datum
import TestScheduler.Files.Path
import TestScheduler.Files.Store
import TestScheduler.Filter.Basic
import TestScheduler.Filter.Field
import TestScheduler.Filter.Matcher
import TestScheduler.Filter.Xml.Printer
import TestScheduler.Filter.Xml.Reader
import TestScheduler.Json.Parser
import TestScheduler.Json.Printer
import TestScheduler.Json.Value
import TestScheduler.LogLevel
import TestScheduler.Main
import TestScheduler.Manifest.Basic
import TestScheduler.Manifest.Document
import TestScheduler.Manifest.Load
import TestScheduler.Manifest.Script
import TestScheduler.Manifest.Validation
import TestScheduler.Pattern.Basic
import TestScheduler.Pattern.Common
import TestScheduler.Pattern.Parser
import TestScheduler.Pattern.Search
import TestScheduler.Pattern.Syntax
import TestScheduler.Query.Error
import TestScheduler.Query.Parser
import TestScheduler.Query.Printer
import TestScheduler.Query.Token
import TestScheduler.Report.Csv
import TestScheduler.Report.Format
import TestScheduler.Report.Listing
import TestScheduler.Report.Outline
import TestScheduler.Report.Render
import TestScheduler.Report.Status
import TestScheduler.Report.Table
import TestScheduler.Result.Basic
import TestScheduler.Result.Document
import TestScheduler.Result.Rollup
import TestScheduler.Result.Summary
import TestScheduler.Result.Verdict
import TestScheduler.Run.Context
import TestScheduler.Run.ContextFamily
import TestScheduler.Run.Dispatch
import TestScheduler.Run.Outcome
import TestScheduler.Run.Runner
import TestScheduler.Run.Session
import TestScheduler.Run.WorkItem
import TestScheduler.Suite.Blueprint
import TestScheduler.Suite.Kind
import TestScheduler.Suite.Node
import TestScheduler.Suite.Properties
import TestScheduler.Suite.Randomizer
import TestScheduler.Suite.Runnability
import TestScheduler.Suite.Setting
import TestScheduler.Text.CaseFold
import TestScheduler.Text.CharTable
import TestScheduler.Text.Dictionary
import TestScheduler.Text.Layout
import TestScheduler.Text.Numeral
import TestScheduler.Text.Percent
import TestScheduler.Text.Quotation
import TestScheduler.Text.Split
import TestScheduler.Timestamp
import TestScheduler.Tree.Basic
import TestScheduler.Tree.Location
import TestScheduler.Xml.Entity
import TestScheduler.Xml.Event
import TestScheduler.Yaml.Cursor
import TestScheduler.Yaml.Node
import TestScheduler.Yaml.Printer
import TestScheduler.Yaml.Scalar
import TestScheduler.Yaml.Token
import TestScheduler.Yaml.Typing
import TestScheduler.Proofs.Filter.Keeping
import TestScheduler.Proofs.Filter.Selection
import TestScheduler.Proofs.Run.Pruning
import TestScheduler.Proofs.Run.Conclusion
import TestScheduler.Proofs.Run.Derivation
import TestScheduler.Proofs.Run.Completion
import TestScheduler.Proofs.Run.Bracketing
import TestScheduler.Proofs.Query.Grammar
import TestScheduler.Proofs.Query.Parsing
import TestScheduler.Proofs.Query.Lexing
import TestScheduler.Proofs.Query.Compiling
import TestScheduler.Proofs.Query.Recompiling
import TestScheduler.Proofs.Xml.Escaping
import TestScheduler.Proofs.Xml.Markup
import TestScheduler.Proofs.Filter.Shape
import TestScheduler.Proofs.Filter.XmlRoundTrip
import TestScheduler.Proofs.Filter.XmlReading
import TestScheduler.Proofs.Result.Rollup
import TestScheduler.Proofs.Run.Accounting
import TestScheduler.Proofs.Cli.ExitCode
import TestScheduler.Proofs.Run.History
import TestScheduler.Proofs.Run.Bodies
import TestScheduler.Proofs.Run.Stopping
import TestScheduler.Proofs.Run.Cancellation
import TestScheduler.Proofs.Run.FirstFailure
import TestScheduler.Proofs.Run.Isolation
import TestScheduler.Proofs.Tree.Subtree
import TestScheduler.Proofs.Run.Proceeding
import TestScheduler.Proofs.Run.WriteOnce
import TestScheduler.Proofs.Run.Selected
import TestScheduler.Proofs.Filter.Reach
import TestScheduler.Proofs.Run.Passing
import TestScheduler.Proofs.Manifest.Naming
import TestScheduler.Proofs.Text.Dictionary
import TestScheduler.Proofs.Manifest.Scripting
import TestScheduler.Proofs.Filter.Naming
import TestScheduler.Proofs.Run.Explicit
import TestScheduler.Proofs.Run.Attempt
import TestScheduler.Proofs.Run.TearingDown
import TestScheduler.Proofs.Run.Reporting
import TestScheduler.Proofs.Run.Job
import TestScheduler.Proofs.Run.Concurrency
import TestScheduler.Proofs.Run.Schedule
import TestScheduler.Proofs.Query.Locating
import TestScheduler.Proofs.Filter.Views
import TestScheduler.Proofs.Query.Composing
import TestScheduler.Proofs.Suite.Identity
import TestScheduler.Proofs.Run.Silencing
import TestScheduler.Proofs.Filter.DoubleNegation
import TestScheduler.Proofs.Result.Cases
import TestScheduler.Proofs.Result.Grading
import TestScheduler.Proofs.Query.Expressing
import TestScheduler.Proofs.Run.Growth
import TestScheduler.Proofs.Run.Serving
import TestScheduler.Proofs.Run.Building
import TestScheduler.Proofs.Run.Counting
import TestScheduler.Proofs.Tree.Paths
import TestScheduler.Proofs.Suite.Construction
import TestScheduler.Proofs.Suite.Properties
import TestScheduler.Proofs.Suite.Restricting
import TestScheduler.Proofs.Suite.MultiMap
import TestScheduler.Proofs.Suite.Ordering
import TestScheduler.Proofs.Filter.XmlLayout
import TestScheduler.Proofs.Xml.Nesting
import TestScheduler.Proofs.Filter.XmlRecursion
import TestScheduler.Proofs.Manifest.Exactness
import TestScheduler.Proofs.Run.Tallying
import TestScheduler.Proofs.Query.Tiling
import TestScheduler.Proofs.Query.Quoting
import TestScheduler.Proofs.Tree.Depths
import TestScheduler.Proofs.Report.Outline
import TestScheduler.Proofs.Report.Csv
import TestScheduler.Proofs.Data.Fields
import TestScheduler.Proofs.Json.Reading
import TestScheduler.Proofs.Manifest.Document
