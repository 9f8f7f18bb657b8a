import GoOutline.Analysis
import GoOutline.CommandLine.Parser
import GoOutline.CommandLine.Refusal
import GoOutline.CommandLine.Run
import GoOutline.CommandLine.Similarity
import GoOutline.CommandLine.Spec
import GoOutline.CommandLine.Terminal
import GoOutline.Config.Basic
import GoOutline.Config.Load
import GoOutline.Config.Reader
import GoOutline.Decimal.Binary
import GoOutline.Decimal.Digits
import GoOutline.Decimal.Places
import GoOutline.Decimal.Shortest
import GoOutline.Doc.Comment
import GoOutline.Doc.Leading
import GoOutline.Doc.Tally
import GoOutline.Files.Path
import GoOutline.Files.Tree
import GoOutline.Files.Walk
import GoOutline.Glob.Basic
import GoOutline.Glob.Reader
import GoOutline.Json.Basic
import GoOutline.Json.Mismatch
import GoOutline.Json.Printer
import GoOutline.Json.Reader
import GoOutline.Language
import GoOutline.Main
import GoOutline.Outline.Binding
import GoOutline.Outline.Collect
import GoOutline.Outline.Declaration
import GoOutline.Outline.Name
import GoOutline.Outline.Signature
import GoOutline.Outline.Visit
import GoOutline.Project.Analysis
import GoOutline.Project.Basic
import GoOutline.Project.Collect
import GoOutline.Project.Report
import GoOutline.Proofs.Analysis.Acceptance
import GoOutline.Proofs.Analysis.Encoding
import GoOutline.Proofs.CommandLine.Accounts
import GoOutline.Proofs.CommandLine.Documents
import GoOutline.Proofs.CommandLine.Outcomes
import GoOutline.Proofs.Config.Exclusions
import GoOutline.Proofs.Doc.Leading
import GoOutline.Proofs.Doc.Paragraphs
import GoOutline.Proofs.Doc.Trailing
import GoOutline.Proofs.Doc.WrittenBack
import GoOutline.Proofs.Files.Flat
import GoOutline.Proofs.Files.Path
import GoOutline.Proofs.Files.Reorder
import GoOutline.Proofs.Files.Resolve
import GoOutline.Proofs.Files.Walk
import GoOutline.Proofs.Json.Layouts
import GoOutline.Proofs.Json.Scalars
import GoOutline.Proofs.Json.Values
import GoOutline.Proofs.Outline.Accounting
import GoOutline.Proofs.Outline.Binding
import GoOutline.Proofs.Outline.Bodies
import GoOutline.Proofs.Outline.Declarations
import GoOutline.Proofs.Outline.DistinctTypes
import GoOutline.Proofs.Outline.Entries
import GoOutline.Proofs.Outline.Groups
import GoOutline.Proofs.Outline.Imports
import GoOutline.Proofs.Outline.InsertedComments
import GoOutline.Proofs.Outline.Locations
import GoOutline.Proofs.Outline.Owners
import GoOutline.Proofs.Outline.Preorder
import GoOutline.Proofs.Outline.Receivers
import GoOutline.Proofs.Outline.TreeMaps
import GoOutline.Proofs.Outline.WrittenSignatures
import GoOutline.Proofs.Outline.WrittenTypes
import GoOutline.Proofs.Project.Isolation
import GoOutline.Proofs.Project.ReportText
import GoOutline.Proofs.Project.Reported
import GoOutline.Proofs.Project.Selection
import GoOutline.Proofs.Project.Totals
import GoOutline.Proofs.Record.RoundTrip
import GoOutline.Proofs.Syntax.Faults
import GoOutline.Proofs.Syntax.Layout
import GoOutline.Proofs.Syntax.Nesting
import GoOutline.Proofs.Syntax.Parts
import GoOutline.Proofs.Syntax.Reading.Basic
import GoOutline.Proofs.Syntax.Reading.Expressions
import GoOutline.Proofs.Syntax.Reading.File
import GoOutline.Proofs.Syntax.Reading.Functions
import GoOutline.Proofs.Syntax.Reading.Groups
import GoOutline.Proofs.Syntax.Reading.Names
import GoOutline.Proofs.Syntax.Reading.Parameters
import GoOutline.Proofs.Syntax.Reading.Types
import GoOutline.Proofs.Syntax.Runs.Basic
import GoOutline.Proofs.Syntax.Runs.Declarations
import GoOutline.Proofs.Syntax.Runs.Expressions
import GoOutline.Proofs.Syntax.Runs.File
import GoOutline.Proofs.Syntax.Runs.Statements
import GoOutline.Proofs.Syntax.Runs.Types
import GoOutline.Proofs.Syntax.Spelling.Basic
import GoOutline.Proofs.Syntax.Spelling.File
import GoOutline.Proofs.Text.BytePosition
import GoOutline.Proofs.Text.Offsets
import GoOutline.Proofs.Text.Position
import GoOutline.Proofs.Text.Utf8
import GoOutline.Proofs.Text.WellFormed
import GoOutline.Record.Basic
import GoOutline.Record.Decoding
import GoOutline.Record.Encoding
import GoOutline.Syntax.Cursor
import GoOutline.Syntax.Grammar.Basic
import GoOutline.Syntax.Grammar.Declarations
import GoOutline.Syntax.Grammar.Expressions
import GoOutline.Syntax.Grammar.File
import GoOutline.Syntax.Grammar.Statements
import GoOutline.Syntax.Grammar.Types
import GoOutline.Syntax.Kind
import GoOutline.Syntax.Lexeme
import GoOutline.Syntax.Node
import GoOutline.Syntax.Tree
import GoOutline.Syntax.TreeCursor
import GoOutline.Syntax.Weight
import GoOutline.Text.Blank
import GoOutline.Text.Identifier
import GoOutline.Text.Position
import GoOutline.Text.Printable
import GoOutline.Text.Quoted
import GoOutline.Text.RangeTable
import GoOutline.Text.Uppercase
import GoOutline.Text.Utf8
import GoOutline.TypeExpr
import GoOutline.Yaml.Basic
import GoOutline.Yaml.Reader
import GoOutline.Yaml.Scalar
import GoOutline.Yaml.State
import GoOutline.Yaml.Value
