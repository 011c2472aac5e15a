import ResourceScript.Bytes.Base64
import ResourceScript.Bytes.BigEndian
import ResourceScript.Bytes.Sha256
import ResourceScript.Command.Execute
import ResourceScript.Command.Invocation
import ResourceScript.Command.Words
import ResourceScript.Decimal.Shortest
import ResourceScript.Document.Basic
import ResourceScript.Document.Date
import ResourceScript.Document.Display
import ResourceScript.Document.Flaw
import ResourceScript.Document.OfJson
import ResourceScript.Document.Shown
import ResourceScript.Failure
import ResourceScript.Files.Import
import ResourceScript.Files.Path
import ResourceScript.Files.Tree
import ResourceScript.Json.Basic
import ResourceScript.Json.Printer
import ResourceScript.Json.Reader
import ResourceScript.Main
import ResourceScript.Problem
import ResourceScript.Proofs.Accounts
import ResourceScript.Proofs.Agreement
import ResourceScript.Proofs.Blame
import ResourceScript.Proofs.Buffers
import ResourceScript.Proofs.Calls
import ResourceScript.Proofs.Codec
import ResourceScript.Proofs.Concatenation
import ResourceScript.Proofs.Constants
import ResourceScript.Proofs.Containment
import ResourceScript.Proofs.Contents
import ResourceScript.Proofs.Declarations
import ResourceScript.Proofs.Decoding
import ResourceScript.Proofs.Destinations
import ResourceScript.Proofs.Directives
import ResourceScript.Proofs.Division
import ResourceScript.Proofs.Drafts
import ResourceScript.Proofs.Effects
import ResourceScript.Proofs.Excerpts
import ResourceScript.Proofs.Fields
import ResourceScript.Proofs.Gaps
import ResourceScript.Proofs.Grammar
import ResourceScript.Proofs.Headers
import ResourceScript.Proofs.History
import ResourceScript.Proofs.Ids
import ResourceScript.Proofs.Inspecting
import ResourceScript.Proofs.JsonRendering
import ResourceScript.Proofs.JsonText
import ResourceScript.Proofs.Layout
import ResourceScript.Proofs.Lexicon
import ResourceScript.Proofs.Lexing
import ResourceScript.Proofs.Likeness
import ResourceScript.Proofs.Lines
import ResourceScript.Proofs.LiteralUnits
import ResourceScript.Proofs.Literals
import ResourceScript.Proofs.Loading
import ResourceScript.Proofs.Lookahead
import ResourceScript.Proofs.Malformed
import ResourceScript.Proofs.Masks
import ResourceScript.Proofs.Members
import ResourceScript.Proofs.Munching
import ResourceScript.Proofs.Names
import ResourceScript.Proofs.Numerals
import ResourceScript.Proofs.Outcome
import ResourceScript.Proofs.Outputs
import ResourceScript.Proofs.Overwriting
import ResourceScript.Proofs.Permutation
import ResourceScript.Proofs.Pieces
import ResourceScript.Proofs.Places
import ResourceScript.Proofs.Progress
import ResourceScript.Proofs.Readers
import ResourceScript.Proofs.Recovery
import ResourceScript.Proofs.Reencoding
import ResourceScript.Proofs.Reports
import ResourceScript.Proofs.Requests
import ResourceScript.Proofs.Safety
import ResourceScript.Proofs.Scans
import ResourceScript.Proofs.Scripts
import ResourceScript.Proofs.Sources
import ResourceScript.Proofs.Statuses
import ResourceScript.Proofs.Stream
import ResourceScript.Proofs.Substitution
import ResourceScript.Proofs.Summaries
import ResourceScript.Proofs.Templates
import ResourceScript.Proofs.Texts
import ResourceScript.Proofs.TypeNames
import ResourceScript.Proofs.Uniformity
import ResourceScript.Proofs.Values
import ResourceScript.Report.Console
import ResourceScript.Report.Diagnostic
import ResourceScript.Report.Event
import ResourceScript.Report.Line
import ResourceScript.Report.Record
import ResourceScript.Report.Reporter
import ResourceScript.Report.Summary
import ResourceScript.Report.Task
import ResourceScript.Resource.Assignment
import ResourceScript.Resource.Compilation
import ResourceScript.Resource.Declaration
import ResourceScript.Resource.Directive
import ResourceScript.Resource.Draft
import ResourceScript.Resource.Inspection
import ResourceScript.Resource.Literal
import ResourceScript.Resource.Location
import ResourceScript.Resource.Manifest
import ResourceScript.Run.Basic
import ResourceScript.Run.Build
import ResourceScript.Run.Output
import ResourceScript.Script.Cursor
import ResourceScript.Script.Header
import ResourceScript.Script.Position
import ResourceScript.Script.Repetition
import ResourceScript.Script.StringLiteral
import ResourceScript.Script.Token
import ResourceScript.Script.Tokenize
import ResourceScript.Template.Basic
import ResourceScript.Template.Load
import ResourceScript.Template.OfDocument
import ResourceScript.Template.Registry
import ResourceScript.Template.Value
import ResourceScript.Template.ValueType
import ResourceScript.Text.Class
import ResourceScript.Text.Decoded
import ResourceScript.Text.Encoding
import ResourceScript.Text.Glyph
import ResourceScript.Text.Hex
import ResourceScript.Text.Numeral
import ResourceScript.Text.Printable
import ResourceScript.Text.Quoted
import ResourceScript.Yaml.Merge
import ResourceScript.Yaml.Node
import ResourceScript.Yaml.Scalar
import ResourceScript.Yaml.Scan
import ResourceScript.Yaml.Spot
import ResourceScript.Yaml.Structure
import ResourceScript.Yaml.ToDocument
import ResourceScript.Yaml.Token
import ResourceScript.Yaml.Tokenize
