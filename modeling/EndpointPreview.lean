import EndpointPreview.Cli.Arguments
import EndpointPreview.Cli.Folder
import EndpointPreview.Cli.Report
import EndpointPreview.Cli.Run
import EndpointPreview.Config.Basic
import EndpointPreview.Config.Codec
import EndpointPreview.Config.Edit
import EndpointPreview.Diagnostic
import EndpointPreview.Endpoint
import EndpointPreview.Example.Response
import EndpointPreview.Example.Url
import EndpointPreview.Identifier
import EndpointPreview.Json.Basic
import EndpointPreview.Json.Codec
import EndpointPreview.Json.Fault
import EndpointPreview.Json.NumberReader
import EndpointPreview.Json.Printer
import EndpointPreview.Json.Reader
import EndpointPreview.Json.Record
import EndpointPreview.Json.TextReader
import EndpointPreview.Json.ValueReader
import EndpointPreview.Keyed
import EndpointPreview.Main
import EndpointPreview.Number.Binary64
import EndpointPreview.Number.Digits
import EndpointPreview.Number.Shortest
import EndpointPreview.Preview
import EndpointPreview.Proofs.Alike
import EndpointPreview.Proofs.CheckLaws
import EndpointPreview.Proofs.ClauseReading
import EndpointPreview.Proofs.CleanReport
import EndpointPreview.Proofs.CodecLaws
import EndpointPreview.Proofs.ColumnPaths
import EndpointPreview.Proofs.ConfigCodec
import EndpointPreview.Proofs.Coverage
import EndpointPreview.Proofs.Deletion
import EndpointPreview.Proofs.EntryChecks
import EndpointPreview.Proofs.FilterReading
import EndpointPreview.Proofs.FilterRuns
import EndpointPreview.Proofs.FilterTokens
import EndpointPreview.Proofs.FunctionGrammar
import EndpointPreview.Proofs.Grouping
import EndpointPreview.Proofs.HalfTypedFilters
import EndpointPreview.Proofs.History
import EndpointPreview.Proofs.IncompleteEntries
import EndpointPreview.Proofs.JsonReading
import EndpointPreview.Proofs.JsonText
import EndpointPreview.Proofs.LiteralLists
import EndpointPreview.Proofs.LocalEdits
import EndpointPreview.Proofs.NewRows
import EndpointPreview.Proofs.OutputColumns
import EndpointPreview.Proofs.PaddedLists
import EndpointPreview.Proofs.Padding
import EndpointPreview.Proofs.PageSize
import EndpointPreview.Proofs.Paging
import EndpointPreview.Proofs.PartialConfigs
import EndpointPreview.Proofs.PrimaryReference
import EndpointPreview.Proofs.QueryReading
import EndpointPreview.Proofs.QueryText
import EndpointPreview.Proofs.QuotedLiterals
import EndpointPreview.Proofs.RawText
import EndpointPreview.Proofs.ReferenceGrammar
import EndpointPreview.Proofs.ShownFilter
import EndpointPreview.Proofs.SurveyLaws
import EndpointPreview.Proofs.TextLaws
import EndpointPreview.Proofs.TextReading
import EndpointPreview.Proofs.UrlItems
import EndpointPreview.Proofs.UrlReading
import EndpointPreview.Proofs.ValueLaws
import EndpointPreview.Proofs.WellFormed
import EndpointPreview.Proofs.WrittenLists
import EndpointPreview.Query.Basic
import EndpointPreview.Query.Sql
import EndpointPreview.Resolution.Basic
import EndpointPreview.Resolution.Check
import EndpointPreview.Resolution.Filters
import EndpointPreview.Resolution.Joins
import EndpointPreview.Resolution.Selection
import EndpointPreview.Resolution.Survey
import EndpointPreview.Session
import EndpointPreview.Settings
import EndpointPreview.Text.Blank
import EndpointPreview.Text.Percent
import EndpointPreview.Text.Printable
import EndpointPreview.Text.Quoted
import EndpointPreview.Text.Rest
import EndpointPreview.Text.Split
import EndpointPreview.Toml.Basic
import EndpointPreview.Toml.Reader
import EndpointPreview.Toml.Scanner
import EndpointPreview.Toml.TextReader
import EndpointPreview.ValueText.Literals
import EndpointPreview.ValueText.Reference
import EndpointPreview.Vocabulary
