import CallStudy.Command.Execute
import CallStudy.Command.Failure
import CallStudy.Command.Form
import CallStudy.Command.Request
import CallStudy.Config.Basic
import CallStudy.Config.Error
import CallStudy.Config.Read
import CallStudy.Config.Store
import CallStudy.Config.Written
import CallStudy.Feature.FromJson
import CallStudy.Feature.Row
import CallStudy.Feature.Sources
import CallStudy.Feature.Table
import CallStudy.Files.Access
import CallStudy.Files.Path
import CallStudy.Files.Tree
import CallStudy.Main
import CallStudy.Number.Binary
import CallStudy.Number.Decimal
import CallStudy.Number.Layout
import CallStudy.Number.Numeral
import CallStudy.Number.Word
import CallStudy.Proofs.Command.Atomic
import CallStudy.Proofs.Command.Look
import CallStudy.Proofs.Config.Fieldwise
import CallStudy.Proofs.Config.Nearest
import CallStudy.Proofs.Config.Reordered
import CallStudy.Proofs.Config.RoundTrip
import CallStudy.Proofs.Config.Slots
import CallStudy.Proofs.Feature.Calls
import CallStudy.Proofs.Feature.Comments
import CallStudy.Proofs.Feature.Formatting
import CallStudy.Proofs.Feature.Generic
import CallStudy.Proofs.Feature.Invocations
import CallStudy.Proofs.Feature.Lines
import CallStudy.Proofs.Feature.Locals
import CallStudy.Proofs.Feature.Row
import CallStudy.Proofs.Feature.Sources
import CallStudy.Proofs.Files.Rearranged
import CallStudy.Proofs.Number.Whole
import CallStudy.Proofs.Run.Guard
import CallStudy.Proofs.Run.Large
import CallStudy.Proofs.Run.Narrated
import CallStudy.Proofs.Run.ReadBack
import CallStudy.Proofs.Source.Collected
import CallStudy.Proofs.Source.Order
import CallStudy.Proofs.Text.Bytes
import CallStudy.Proofs.Toml.Keys
import CallStudy.Proofs.Workload.ClosedForms
import CallStudy.Proofs.Workload.Constant
import CallStudy.Proofs.Workload.Oversized
import CallStudy.Run.Demonstration
import CallStudy.Run.Event
import CallStudy.Run.Filter
import CallStudy.Run.Report
import CallStudy.Source.Ahead
import CallStudy.Source.CharClass
import CallStudy.Source.Function
import CallStudy.Source.Grammar
import CallStudy.Source.Lexer
import CallStudy.Source.Literal
import CallStudy.Source.Metrics
import CallStudy.Source.Printed
import CallStudy.Source.Syntax.Expr
import CallStudy.Source.Syntax.Generics
import CallStudy.Source.Syntax.Item
import CallStudy.Source.Syntax.Path
import CallStudy.Source.Syntax.Pattern
import CallStudy.Source.Syntax.Rule
import CallStudy.Source.Syntax.Type
import CallStudy.Source.Token
import CallStudy.Source.Tree
import CallStudy.Text.Csv
import CallStudy.Text.Json
import CallStudy.Text.Printable
import CallStudy.Text.RangeTable
import CallStudy.Toml.Document
import CallStudy.Toml.Quoted
import CallStudy.Toml.Scalar
import CallStudy.Toml.Value
import CallStudy.Workload.Branch
import CallStudy.Workload.Grid
import CallStudy.Workload.Moments
import CallStudy.Workload.Scale
import CallStudy.Proofs.Workload.Visited
import CallStudy.Proofs.Command.Counted
import CallStudy.Proofs.Number.Plain
import CallStudy.Proofs.Run.Retold
import CallStudy.Proofs.Feature.Returned
import CallStudy.Proofs.Source.Walk
