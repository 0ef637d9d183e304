import SemanticHighlight.Bisection
import SemanticHighlight.Capture.Basic
import SemanticHighlight.Capture.Discovery
import SemanticHighlight.Capture.Name
import SemanticHighlight.Command.Console
import SemanticHighlight.Command.Jobs
import SemanticHighlight.Command.Manual
import SemanticHighlight.Command.Parameters
import SemanticHighlight.Command.Program
import SemanticHighlight.Command.Spec
import SemanticHighlight.Command.Words
import SemanticHighlight.Config.Assets
import SemanticHighlight.Config.Basic
import SemanticHighlight.Config.Comparison
import SemanticHighlight.Config.Content
import SemanticHighlight.Config.Loading
import SemanticHighlight.Config.Reading
import SemanticHighlight.Config.Schema
import SemanticHighlight.Config.Services
import SemanticHighlight.Config.Value
import SemanticHighlight.Config.Wording
import SemanticHighlight.Engine.Basic
import SemanticHighlight.Engine.Host
import SemanticHighlight.Engine.Pattern
import SemanticHighlight.Engine.Platform
import SemanticHighlight.Files.Path
import SemanticHighlight.Files.Tree
import SemanticHighlight.Highlight.Document
import SemanticHighlight.Highlight.Session
import SemanticHighlight.Highlight.Setup
import SemanticHighlight.Json.Basic
import SemanticHighlight.Json.Printer
import SemanticHighlight.Json.Reader
import SemanticHighlight.Language.Binding
import SemanticHighlight.Language.Config
import SemanticHighlight.Language.LoadFailure
import SemanticHighlight.Log
import SemanticHighlight.Main
import SemanticHighlight.Number.Binary64
import SemanticHighlight.Number.Calendar
import SemanticHighlight.Number.Numeral
import SemanticHighlight.Number.Shortest
import SemanticHighlight.Position.Basic
import SemanticHighlight.Position.LineIndex
import SemanticHighlight.Position.Range
import SemanticHighlight.Proofs.Checked
import SemanticHighlight.Proofs.Engine.Nodes
import SemanticHighlight.Proofs.Highlight.Attempt
import SemanticHighlight.Proofs.Highlight.NoOverlap
import SemanticHighlight.Proofs.Highlight.Visit
import SemanticHighlight.Proofs.Position.Embedding
import SemanticHighlight.Proofs.Position.Extent
import SemanticHighlight.Proofs.Position.Offset
import SemanticHighlight.Proofs.Token.Apart
import SemanticHighlight.Proofs.Token.Containment
import SemanticHighlight.Proofs.Token.Ownership
import SemanticHighlight.Proofs.Token.Pieces
import SemanticHighlight.Registry.Basic
import SemanticHighlight.Registry.Desk
import SemanticHighlight.Report.Failure
import SemanticHighlight.Report.Verdict
import SemanticHighlight.Server.Basic
import SemanticHighlight.Server.Events
import SemanticHighlight.Server.Highlighting
import SemanticHighlight.Server.IpAddress
import SemanticHighlight.Server.Languages
import SemanticHighlight.Server.Lifetime
import SemanticHighlight.Server.Settings
import SemanticHighlight.Server.Uri
import SemanticHighlight.Text.Basic
import SemanticHighlight.Text.Blank
import SemanticHighlight.Text.Cased
import SemanticHighlight.Text.Lines
import SemanticHighlight.Text.Lowercase
import SemanticHighlight.Text.Pieces
import SemanticHighlight.Text.Printable
import SemanticHighlight.Text.Quoted
import SemanticHighlight.Text.Similarity
import SemanticHighlight.Text.Utf16
import SemanticHighlight.Text.Utf8
import SemanticHighlight.Token.Basic
import SemanticHighlight.Token.Containment
import SemanticHighlight.Token.Fragments
import SemanticHighlight.Token.Legend
import SemanticHighlight.Token.Merge
import SemanticHighlight.Token.Rows
import SemanticHighlight.Token.Stream
import SemanticHighlight.Yaml.Basic
import SemanticHighlight.Yaml.Complaint
import SemanticHighlight.Yaml.Lexeme
import SemanticHighlight.Yaml.Lexer
import SemanticHighlight.Yaml.Literal
import SemanticHighlight.Yaml.Merge
import SemanticHighlight.Yaml.Node
import SemanticHighlight.Yaml.Reading
import SemanticHighlight.Yaml.Scalar
import SemanticHighlight.Yaml.Source
import SemanticHighlight.Yaml.Tag
import SemanticHighlight.Proofs.Token.Decoding
import SemanticHighlight.Proofs.Token.OneLine
import SemanticHighlight.Proofs.Highlight.OneLine
import SemanticHighlight.Proofs.Registry.Consistency
import SemanticHighlight.Proofs.Registry.History
import SemanticHighlight.Proofs.Registry.SingleFlight
import SemanticHighlight.Proofs.Registry.Freshness
import SemanticHighlight.Proofs.Text.Splitting
import SemanticHighlight.Proofs.Files.Normal
import SemanticHighlight.Proofs.Engine.Loading
import SemanticHighlight.Proofs.Highlight.Agreement
import SemanticHighlight.Proofs.Highlight.Settled
import SemanticHighlight.Proofs.Strand.Basic
import SemanticHighlight.Proofs.Strand.Conduct
import SemanticHighlight.Proofs.Strand.Ending
import SemanticHighlight.Proofs.Strand.Progress
import SemanticHighlight.Proofs.Highlight.Ending
import SemanticHighlight.Proofs.Highlight.Marked
import SemanticHighlight.Proofs.Highlight.Requests
import SemanticHighlight.Proofs.Highlight.Errands
import SemanticHighlight.Proofs.Highlight.Scenes
import SemanticHighlight.Proofs.Highlight.Answers
import SemanticHighlight.Proofs.Highlight.Decided
import SemanticHighlight.Proofs.Highlight.Completion
import SemanticHighlight.Proofs.Highlight.Alone
import SemanticHighlight.Proofs.Highlight.Caching
import SemanticHighlight.Proofs.Highlight.Reloading
import SemanticHighlight.Proofs.Highlight.Inverted
import SemanticHighlight.Proofs.Highlight.Vocabulary
import SemanticHighlight.Proofs.Server.Lasting
import SemanticHighlight.Proofs.Server.Announced
import SemanticHighlight.Proofs.Config.Roots
import SemanticHighlight.Proofs.Server.Roots
import SemanticHighlight.Proofs.Text.Coding
import SemanticHighlight.Proofs.Engine.Captures
import SemanticHighlight.Proofs.Server.Standing
import SemanticHighlight.Proofs.Server.ClientLanguages
import SemanticHighlight.Proofs.Highlight.Depth
import SemanticHighlight.Proofs.Highlight.Omission
import SemanticHighlight.Proofs.Token.Coverage
import SemanticHighlight.Proofs.Token.Lookup
import SemanticHighlight.Proofs.Token.Survivors
import SemanticHighlight.Proofs.Token.Siblings
import SemanticHighlight.Proofs.Text.Units
import SemanticHighlight.Proofs.Token.Reordering
import SemanticHighlight.Proofs.Token.Rows
import SemanticHighlight.Proofs.Position.Rounding
import SemanticHighlight.Proofs.Registry.Offering
import SemanticHighlight.Proofs.Config.Comparing
import SemanticHighlight.Proofs.Config.Sorting
import SemanticHighlight.Proofs.Config.Conformance
import SemanticHighlight.Proofs.Config.Meaning
import SemanticHighlight.Proofs.Config.Selection
import SemanticHighlight.Proofs.Json.Parts
import SemanticHighlight.Proofs.Config.Contents
import SemanticHighlight.Proofs.Config.Documents
import SemanticHighlight.Proofs.Text.Pieces
import SemanticHighlight.Proofs.Config.Mishaps
import SemanticHighlight.Proofs.Server.Mishaps
import SemanticHighlight.Proofs.Position.Spans
import SemanticHighlight.Proofs.Config.Stability
import SemanticHighlight.Proofs.Capture.Discovery
import SemanticHighlight.Proofs.Highlight.Precedence
import SemanticHighlight.Proofs.Config.Entries
import SemanticHighlight.Proofs.Server.Options
