import Gherkin.Text.Basic
import Gherkin.Text.Ranges
import Gherkin.Text.Blank
import Gherkin.Text.Lines
import Gherkin.Text.Word
import Gherkin.Text.Quoted
import Gherkin.Trailing
import Gherkin.StepFamily
import Gherkin.Dialect.Basic
import Gherkin.Catalogue
import Gherkin.Json.Value
import Gherkin.Json.Reader
import Gherkin.Json.Printer
import Gherkin.Dialect.Table
import Gherkin.Dialect.Standard
import Gherkin.Dialect.Document
import Gherkin.Token
import Gherkin.Token.Listing
import Gherkin.Line.Directive
import Gherkin.Line.Tags
import Gherkin.Line.Row
import Gherkin.Line.Keyword
import Gherkin.Line.Pattern
import Gherkin.Line.Shape
import Gherkin.Event
import Gherkin.Document.Block
import Gherkin.Document.Scan
import Gherkin.Feature.Basic
import Gherkin.Feature.Segment
import Gherkin.Feature.Assembly
import Gherkin.Feature.Dump
import Gherkin.Feature.Json
import Gherkin.Document.Parse
import Gherkin.Command.Error
import Gherkin.Command.Settings
import Gherkin.Command.Arguments
import Gherkin.Command.Run
import Gherkin.Command.Directory
import Gherkin.Main
import Gherkin.Proofs.Trailing
import Gherkin.Proofs.Part
import Gherkin.Proofs.Segments
import Gherkin.Proofs.Reading
import Gherkin.Proofs.Assembling
import Gherkin.Proofs.FeatureOutline
import Gherkin.Proofs.TagOwnership
import Gherkin.Proofs.TagAccount
import Gherkin.Proofs.TagReports
import Gherkin.Proofs.AssemblyInvariant
import Gherkin.Proofs.RowOwnership
import Gherkin.Proofs.Renumbering
import Gherkin.Proofs.Scanning
import Gherkin.Proofs.FeatureBoundary
import Gherkin.Proofs.Neat
import Gherkin.Proofs.RowCells
import Gherkin.Proofs.Wording
import Gherkin.Proofs.Legible
import Gherkin.Proofs.LegibleFeature
import Gherkin.Proofs.FeatureTokens
import Gherkin.Proofs.DumpReading
import Gherkin.Proofs.DumpRoundTrip
import Gherkin.Proofs.TextBlock
import Gherkin.Proofs.TokenOrder
import Gherkin.Proofs.LineAccount
import Gherkin.Proofs.BlockCapture
import Gherkin.Proofs.Layout
import Gherkin.Proofs.Locale
import Gherkin.Proofs.Appending
import Gherkin.Proofs.TagInsertion
import Gherkin.Proofs.Lossless
import Gherkin.Proofs.BaseLocale
import Gherkin.Proofs.TokenGrammar
import Gherkin.Proofs.StepArguments
import Gherkin.Proofs.StepTypes
import Gherkin.Proofs.KeywordPattern
import Gherkin.Proofs.KeywordChoice
import Gherkin.Proofs.Bytes
import Gherkin.Proofs.TagWords
import Gherkin.Proofs.Directives
import Gherkin.Proofs.Catalogue
import Gherkin.Proofs.Lookup
import Gherkin.Proofs.Compiling
import Gherkin.Proofs.KeywordDocument
import Gherkin.Proofs.Respelling
import Gherkin.Proofs.ListingReading
import Gherkin.Proofs.JsonReading
import Gherkin.Proofs.DialectDocument
import Gherkin.Proofs.FeatureJson
import Gherkin.Proofs.FlagSettings
import Gherkin.Proofs.ExitStatus
import Gherkin.Proofs.FaultClass
