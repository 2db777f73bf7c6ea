import Backtick.Bytes.Basic
import Backtick.Bytes.Utf8
import Backtick.Command.Arguments
import Backtick.Command.Configuration
import Backtick.Command.Flag
import Backtick.Command.Invocation
import Backtick.Command.LogScan
import Backtick.Command.Paths
import Backtick.Command.Run
import Backtick.Constant.Basic
import Backtick.Constant.Check
import Backtick.Constant.Evaluate
import Backtick.Constant.Lexeme
import Backtick.Constant.Operation
import Backtick.Constant.Read
import Backtick.Document.Basic
import Backtick.Document.Json
import Backtick.Fault.Basic
import Backtick.Fault.Snippet
import Backtick.Fields
import Backtick.Files.Path
import Backtick.Files.System
import Backtick.Log.Config
import Backtick.Log.Datum
import Backtick.Log.Event
import Backtick.Log.Level
import Backtick.Log.Line
import Backtick.Log.Logger
import Backtick.Log.Object
import Backtick.Log.Pretty
import Backtick.Log.Record
import Backtick.Log.Sheet
import Backtick.Main
import Backtick.Number.Arithmetic
import Backtick.Number.Binary64
import Backtick.Number.Decimal
import Backtick.Number.Notation
import Backtick.Number.Numeral
import Backtick.Number.Power
import Backtick.Program
import Backtick.Proofs.Acceptance
import Backtick.Proofs.Agreement
import Backtick.Proofs.Appending
import Backtick.Proofs.Blame
import Backtick.Proofs.CallHints
import Backtick.Proofs.CandidateBar
import Backtick.Proofs.Canonical
import Backtick.Proofs.Characters
import Backtick.Proofs.CommandWalk
import Backtick.Proofs.Comparison
import Backtick.Proofs.Concatenation
import Backtick.Proofs.Cursor
import Backtick.Proofs.CursorBounds
import Backtick.Proofs.DelimiterScans
import Backtick.Proofs.Delimiters
import Backtick.Proofs.Dependence
import Backtick.Proofs.DocumentOrder
import Backtick.Proofs.Drafts
import Backtick.Proofs.EditLoop
import Backtick.Proofs.FaultBuilding
import Backtick.Proofs.Figures
import Backtick.Proofs.FirstFailure
import Backtick.Proofs.Flattening
import Backtick.Proofs.Grammar
import Backtick.Proofs.HistoryWalks
import Backtick.Proofs.InputField
import Backtick.Proofs.Lexemes
import Backtick.Proofs.Likeness
import Backtick.Proofs.Names
import Backtick.Proofs.Outcome
import Backtick.Proofs.Parentheses
import Backtick.Proofs.Parsing
import Backtick.Proofs.Paths
import Backtick.Proofs.Persistence
import Backtick.Proofs.Placement
import Backtick.Proofs.Policies
import Backtick.Proofs.Positions
import Backtick.Proofs.Precedence
import Backtick.Proofs.Quoting
import Backtick.Proofs.Recency
import Backtick.Proofs.Rejection
import Backtick.Proofs.Resolution
import Backtick.Proofs.ResolvedPaths
import Backtick.Proofs.Rounding
import Backtick.Proofs.Scanning
import Backtick.Proofs.Shape
import Backtick.Proofs.Slices
import Backtick.Proofs.Snippets
import Backtick.Proofs.Spacing
import Backtick.Proofs.Spans
import Backtick.Proofs.Stream
import Backtick.Proofs.Terms
import Backtick.Proofs.Tiling
import Backtick.Proofs.Trimming
import Backtick.Proofs.Turns
import Backtick.Proofs.Validity
import Backtick.Proofs.WordCompletion
import Backtick.Proofs.WordRange
import Backtick.Script.Emit
import Backtick.Script.Read
import Backtick.Script.Run
import Backtick.Session.Bar
import Backtick.Session.Command
import Backtick.Session.Completion
import Backtick.Session.Editor
import Backtick.Session.Field
import Backtick.Session.History
import Backtick.Session.Key
import Backtick.Session.Mode
import Backtick.Session.Preview
import Backtick.Session.Recall
import Backtick.Session.Signature
import Backtick.Session.State
import Backtick.Session.View
import Backtick.Template.Compile
import Backtick.Template.Engine
import Backtick.Template.Evaluate
import Backtick.Text.Blank
import Backtick.Text.Cells
import Backtick.Text.Cluster
import Backtick.Text.CodePoint
import Backtick.Text.Fuzzy
import Backtick.Text.Letter
import Backtick.Text.Lines
import Backtick.Text.Printable
import Backtick.Text.Quoted
import Backtick.Text.Ranges
import Backtick.Text.Styled
import Backtick.Text.Terminal
import Backtick.Text.Word
import Backtick.Time.Duration
import Backtick.Time.Layout
import Backtick.Time.Moment
import Backtick.Time.Stamp
import Backtick.Token.Basic
import Backtick.Token.Listing
import Backtick.Token.Scan
import Backtick.Tree.Basic
import Backtick.Tree.Canonical
import Backtick.Tree.Outline
import Backtick.Tree.Parse
import Backtick.Tree.Visit
import Backtick.Value.Basic
import Backtick.Value.Compare
import Backtick.Value.Json
import Backtick.Value.Length
import Backtick.Value.Text
import Backtick.Variables.Assign
import Backtick.Variables.Load
import Backtick.Variables.Policy
import Backtick.Variables.Search
import Backtick.Variables.Store
import Backtick.Yaml.Layout
import Backtick.Yaml.Node
import Backtick.Yaml.Plain
import Backtick.Yaml.Quoted
import Backtick.Yaml.Read
import Backtick.Yaml.Scalar
import Backtick.Yaml.TextBlock
import Backtick.Yaml.Token
import Backtick.Yaml.Tokens
import Backtick.Yaml.Write
