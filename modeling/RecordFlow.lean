import RecordFlow.Command.Arguments
import RecordFlow.Command.Basic
import RecordFlow.Command.Run
import RecordFlow.Compile
import RecordFlow.Decimal
import RecordFlow.Diagnostic
import RecordFlow.File.Access
import RecordFlow.File.Error
import RecordFlow.File.Path
import RecordFlow.File.Tree
import RecordFlow.Main
import RecordFlow.Manual
import RecordFlow.Proofs.Compile.Diagnostics
import RecordFlow.Proofs.Compile.Extension
import RecordFlow.Proofs.Compile.Layout
import RecordFlow.Proofs.Compile.Parameters
import RecordFlow.Proofs.Compile.Trees
import RecordFlow.Proofs.Decimal.Digits
import RecordFlow.Proofs.Decimal.Exact
import RecordFlow.Proofs.File.Extension
import RecordFlow.Proofs.Grammar.Acceptance
import RecordFlow.Proofs.Grammar.Basic
import RecordFlow.Proofs.Grammar.Beginnings
import RecordFlow.Proofs.Grammar.Completeness
import RecordFlow.Proofs.Grammar.FirstError
import RecordFlow.Proofs.Grammar.Soundness
import RecordFlow.Proofs.Grammar.Words
import RecordFlow.Proofs.Production.Bound
import RecordFlow.Proofs.Production.Built
import RecordFlow.Proofs.Production.Confined
import RecordFlow.Proofs.Production.Cursor
import RecordFlow.Proofs.Production.Prompt
import RecordFlow.Proofs.Production.Run
import RecordFlow.Proofs.Render.Blame
import RecordFlow.Proofs.Render.Calls
import RecordFlow.Proofs.Render.Complaints
import RecordFlow.Proofs.Render.Conditions
import RecordFlow.Proofs.Render.Kept
import RecordFlow.Proofs.Render.Names
import RecordFlow.Proofs.Render.Namespaces
import RecordFlow.Proofs.Render.Numbers
import RecordFlow.Proofs.Render.Places
import RecordFlow.Proofs.Render.Run
import RecordFlow.Proofs.Render.Static
import RecordFlow.Proofs.Render.Success
import RecordFlow.Proofs.Report.Breaks
import RecordFlow.Proofs.Report.Listing
import RecordFlow.Proofs.Script.Boundary
import RecordFlow.Proofs.Script.Cursor
import RecordFlow.Proofs.Script.Nodes
import RecordFlow.Proofs.Script.Order
import RecordFlow.Proofs.Script.Places
import RecordFlow.Proofs.Script.Printer
import RecordFlow.Proofs.Script.Restore
import RecordFlow.Proofs.Script.RoundTrip
import RecordFlow.Proofs.Script.Rounds
import RecordFlow.Proofs.Script.Scope
import RecordFlow.Proofs.Script.Slices
import RecordFlow.Proofs.Script.Tokens
import RecordFlow.Proofs.Script.WellFormed
import RecordFlow.Proofs.Session.Runs
import RecordFlow.Proofs.Settings.Output
import RecordFlow.Proofs.Snippet.Complete
import RecordFlow.Proofs.Snippet.Reading
import RecordFlow.Proofs.Token.Boundary
import RecordFlow.Proofs.Token.Closer
import RecordFlow.Proofs.Token.Diagnosis
import RecordFlow.Proofs.Token.Escaped
import RecordFlow.Proofs.Token.Fault
import RecordFlow.Proofs.Token.Lines
import RecordFlow.Proofs.Token.Order
import RecordFlow.Proofs.Token.Partition
import RecordFlow.Proofs.Token.Printer
import RecordFlow.Proofs.Token.Spacing
import RecordFlow.Proofs.Token.Spelling
import RecordFlow.Proofs.Token.Trivia
import RecordFlow.Render.Basic
import RecordFlow.Render.Context
import RecordFlow.Render.Error
import RecordFlow.Report
import RecordFlow.Script.Basic
import RecordFlow.Script.Error
import RecordFlow.Script.Join
import RecordFlow.Script.Parser
import RecordFlow.Script.Production.Basic
import RecordFlow.Script.Production.Field
import RecordFlow.Script.Production.Source
import RecordFlow.Script.Production.Statement
import RecordFlow.Session
import RecordFlow.Settings
import RecordFlow.Settings.File
import RecordFlow.Snippet.Directory
import RecordFlow.Snippet.Library
import RecordFlow.Snippet.Role
import RecordFlow.Snippet.Template
import RecordFlow.Text.Alphabetic
import RecordFlow.Text.Blank
import RecordFlow.Text.Lines
import RecordFlow.Text.Numeric
import RecordFlow.Text.Position
import RecordFlow.Text.Ranges
import RecordFlow.Token.Basic
import RecordFlow.Token.Escaped
import RecordFlow.Token.Kind
import RecordFlow.Token.Lexeme
import RecordFlow.Token.Scanner
import RecordFlow.Token.Trivia
import RecordFlow.Toml.Document
import RecordFlow.Toml.Scalar
import RecordFlow.Toml.Text
import RecordFlow.Toml.Value
