import ExperimentKpi.Access.Grants
import ExperimentKpi.Access.Reload
import ExperimentKpi.Api.App
import ExperimentKpi.Api.Percent
import ExperimentKpi.Api.Request
import ExperimentKpi.Api.Response
import ExperimentKpi.Api.Route
import ExperimentKpi.Collect
import ExperimentKpi.Config.Arguments
import ExperimentKpi.Config.Basic
import ExperimentKpi.Config.DotEnv
import ExperimentKpi.Config.Load
import ExperimentKpi.Config.Toml
import ExperimentKpi.DateTime
import ExperimentKpi.Design.Basic
import ExperimentKpi.Design.Pattern
import ExperimentKpi.Experiment.Basic
import ExperimentKpi.Failure
import ExperimentKpi.Json.Basic
import ExperimentKpi.Json.Printer
import ExperimentKpi.Json.Raw
import ExperimentKpi.Json.Token
import ExperimentKpi.Number.Basic
import ExperimentKpi.Number.Binary64
import ExperimentKpi.Number.Shortest
import ExperimentKpi.Number.Word
import ExperimentKpi.Paging
import ExperimentKpi.Proofs.Query.Literals
import ExperimentKpi.Query.Compile
import ExperimentKpi.Query.Entity
import ExperimentKpi.Query.Kind
import ExperimentKpi.Query.Literal
import ExperimentKpi.Query.Parameters
import ExperimentKpi.Query.Sanitize
import ExperimentKpi.Service.Inquiry
import ExperimentKpi.Service.Kpi
import ExperimentKpi.Settings.Basic
import ExperimentKpi.Settings.PatternId
import ExperimentKpi.Settings.Reader
import ExperimentKpi.Settings.Schema
import ExperimentKpi.Settings.Validate
import ExperimentKpi.Store.Basic
import ExperimentKpi.Store.Column
import ExperimentKpi.Store.Command
import ExperimentKpi.Store.Query
import ExperimentKpi.Store.Table
import ExperimentKpi.Template.Block
import ExperimentKpi.Template.Error
import ExperimentKpi.Template.Expression
import ExperimentKpi.Template.Piece
import ExperimentKpi.Template.Render
import ExperimentKpi.Template.Tree
import ExperimentKpi.Template.Value
import ExperimentKpi.Template.Word
import ExperimentKpi.Text.Alphanumeric
import ExperimentKpi.Text.AlphanumericTable
import ExperimentKpi.Text.Blank
import ExperimentKpi.Text.Case
import ExperimentKpi.Text.CaseTable
import ExperimentKpi.Text.Integer
import ExperimentKpi.Text.PrintableTable
import ExperimentKpi.Text.Quoted
import ExperimentKpi.Text.Utf8
import ExperimentKpi.Token.Base64Url
import ExperimentKpi.Token.Duration
import ExperimentKpi.Token.Sha256
import ExperimentKpi.Token.Signed
import ExperimentKpi.Proofs.Query.Safety
import ExperimentKpi.Proofs.Api.Outcome
import ExperimentKpi.Proofs.Store.Kpis
import ExperimentKpi.Proofs.Api.Frame
import ExperimentKpi.Proofs.Api.Consistency
import ExperimentKpi.Proofs.Template.Condition
import ExperimentKpi.Proofs.Template.Parts
import ExperimentKpi.Proofs.Template.Source
import ExperimentKpi.Proofs.Collect
import ExperimentKpi.Proofs.Sequence
import ExperimentKpi.Proofs.Design.Leaves
import ExperimentKpi.Proofs.Design.Nesting
import ExperimentKpi.Proofs.Design.Resolving
import ExperimentKpi.Proofs.Design.Rows
import ExperimentKpi.Proofs.Json.FloatText
import ExperimentKpi.Proofs.Json.Reread
import ExperimentKpi.Proofs.Settings.Draft4
import ExperimentKpi.Proofs.Settings.Reading
import ExperimentKpi.Proofs.Settings.Verdict
import ExperimentKpi.Proofs.Settings.Reread
import ExperimentKpi.Proofs.Settings.Assignment
import ExperimentKpi.Proofs.Access.Policy
import ExperimentKpi.Proofs.Access.Reload
import ExperimentKpi.Proofs.Query.Padding
import ExperimentKpi.Proofs.Query.Reading
import ExperimentKpi.Proofs.Query.Compiled
import ExperimentKpi.Proofs.Query.Fragments
import ExperimentKpi.Proofs.Query.Parameters
import ExperimentKpi.Proofs.Service.Lifecycle
import ExperimentKpi.Proofs.Api.Lifecycle
import ExperimentKpi.Proofs.Api.Permanence
import ExperimentKpi.Proofs.Api.Shown
import ExperimentKpi.Proofs.Api.CreatesOnce
import ExperimentKpi.Proofs.Api.Overtaking
import ExperimentKpi.Proofs.Template.Grammar
import ExperimentKpi.Proofs.Api.Authentication
import ExperimentKpi.Proofs.Api.Commuting
import ExperimentKpi.Proofs.Api.Pages
import ExperimentKpi.Proofs.Template.Blocks
import ExperimentKpi.Proofs.Template.TagForms
import ExperimentKpi.Proofs.Template.Height
import ExperimentKpi.Proofs.Template.Joining
import ExperimentKpi.Proofs.Template.FreeNames
import ExperimentKpi.Proofs.Template.Renaming
import ExperimentKpi.Proofs.Template.Separators
import ExperimentKpi.Proofs.Settings.Conditions
import ExperimentKpi.Proofs.Query.Conditions
import ExperimentKpi.Proofs.Template.Trimming
import ExperimentKpi.Proofs.Template.DottedPath
import ExperimentKpi.Proofs.Template.Comparison
import ExperimentKpi.Proofs.Query.Edits
import ExperimentKpi.Proofs.Query.Encoding
import ExperimentKpi.Proofs.Token.Lifetime
import ExperimentKpi.Proofs.Settings.RoundTrip
import ExperimentKpi.Proofs.Access.Additions
import ExperimentKpi.Proofs.Paging
import ExperimentKpi.Proofs.Text.Slice
import ExperimentKpi.Proofs.Template.Unclosed
import ExperimentKpi.Proofs.Template.Scan
import ExperimentKpi.Proofs.Template.OpenBlocks
import ExperimentKpi.Proofs.Template.Faults
import ExperimentKpi.Proofs.Config.Options
import ExperimentKpi.Proofs.Config.Document
import ExperimentKpi.Proofs.Config.Variables
import ExperimentKpi.Proofs.Config.Loading
