import ServiceHarness.Command.ArgumentError
import ServiceHarness.Command.Arguments
import ServiceHarness.Command.Basic
import ServiceHarness.Command.Help
import ServiceHarness.Command.Invocation
import ServiceHarness.Command.Run
import ServiceHarness.Command.Verb
import ServiceHarness.Decimal.Binary64
import ServiceHarness.Decimal.Shortest
import ServiceHarness.Document.Format
import ServiceHarness.Document.Json.Cursor
import ServiceHarness.Document.Json.Fault
import ServiceHarness.Document.Json.Number
import ServiceHarness.Document.Json.Reader
import ServiceHarness.Document.Json.Text
import ServiceHarness.Document.Json.Writer
import ServiceHarness.Document.LoadError
import ServiceHarness.Document.Loading
import ServiceHarness.Document.Mismatch
import ServiceHarness.Document.Reading
import ServiceHarness.Document.Record
import ServiceHarness.Document.Toml.Assembly
import ServiceHarness.Document.Toml.Datum
import ServiceHarness.Document.Toml.Fault
import ServiceHarness.Document.Toml.Moment
import ServiceHarness.Document.Toml.Number
import ServiceHarness.Document.Toml.Reader
import ServiceHarness.Document.Toml.Scalar
import ServiceHarness.Document.Toml.Statement
import ServiceHarness.Document.Toml.Table
import ServiceHarness.Document.Toml.Text
import ServiceHarness.Document.Toml.Token
import ServiceHarness.Harness.Generation
import ServiceHarness.Harness.Identifier
import ServiceHarness.Harness.Loading
import ServiceHarness.Harness.Naming
import ServiceHarness.Harness.Rendering
import ServiceHarness.Harness.Skeleton
import ServiceHarness.Harness.Template
import ServiceHarness.Log.Event
import ServiceHarness.Log.Filter
import ServiceHarness.Main
import ServiceHarness.Proofs.Command.Arguments
import ServiceHarness.Proofs.Command.Printing
import ServiceHarness.Proofs.Command.Running
import ServiceHarness.Proofs.Command.Verdicts
import ServiceHarness.Proofs.Document.Agreement
import ServiceHarness.Proofs.Document.Inference
import ServiceHarness.Proofs.Document.Json.Cursor
import ServiceHarness.Proofs.Document.Json.Grammar
import ServiceHarness.Proofs.Document.Json.Language
import ServiceHarness.Proofs.Document.Json.Layout
import ServiceHarness.Proofs.Document.Json.Records
import ServiceHarness.Proofs.Document.Json.Strings
import ServiceHarness.Proofs.Document.Json.Tokens
import ServiceHarness.Proofs.Document.Json.Writing
import ServiceHarness.Proofs.Document.Loading
import ServiceHarness.Proofs.Document.Record
import ServiceHarness.Proofs.Document.Toml.Building
import ServiceHarness.Proofs.Document.Toml.Language
import ServiceHarness.Proofs.Document.Toml.Lexing
import ServiceHarness.Proofs.Document.Toml.Records
import ServiceHarness.Proofs.Document.Toml.Rows
import ServiceHarness.Proofs.Document.Toml.Strings
import ServiceHarness.Proofs.Document.Toml.Tabular
import ServiceHarness.Proofs.Document.Toml.Writing
import ServiceHarness.Proofs.Go.Bindings
import ServiceHarness.Proofs.Go.Brackets
import ServiceHarness.Proofs.Go.Calls
import ServiceHarness.Proofs.Go.Declarations
import ServiceHarness.Proofs.Go.Grammar
import ServiceHarness.Proofs.Go.Lexer
import ServiceHarness.Proofs.Go.Literals
import ServiceHarness.Proofs.Go.Members
import ServiceHarness.Proofs.Go.Reading
import ServiceHarness.Proofs.Harness.Acceptance
import ServiceHarness.Proofs.Harness.Blocks
import ServiceHarness.Proofs.Harness.Derived
import ServiceHarness.Proofs.Harness.Dispatch
import ServiceHarness.Proofs.Harness.Identifiers
import ServiceHarness.Proofs.Harness.Landmarks
import ServiceHarness.Proofs.Harness.Layout
import ServiceHarness.Proofs.Harness.Letters
import ServiceHarness.Proofs.Harness.Matching
import ServiceHarness.Proofs.Harness.Names
import ServiceHarness.Proofs.Harness.Reading
import ServiceHarness.Proofs.Harness.Recovery
import ServiceHarness.Proofs.Harness.Rows
import ServiceHarness.Proofs.Harness.Shadowing
import ServiceHarness.Proofs.Harness.Spelling
import ServiceHarness.Proofs.Harness.Tokens
import ServiceHarness.Proofs.Outcome
import ServiceHarness.Proofs.Service.Validity
import ServiceHarness.Proofs.Service.Violations
import ServiceHarness.Proofs.Session.Staleness
import ServiceHarness.Proofs.Storage.Checking
import ServiceHarness.Proofs.Storage.Components
import ServiceHarness.Proofs.Storage.Directories
import ServiceHarness.Proofs.Storage.Effects
import ServiceHarness.Proofs.Storage.Entries
import ServiceHarness.Proofs.Storage.Overwriting
import ServiceHarness.Proofs.Storage.Reading
import ServiceHarness.Proofs.Storage.Resolution
import ServiceHarness.Proofs.Storage.Segments
import ServiceHarness.Proofs.Storage.Staging
import ServiceHarness.Proofs.Storage.Writing
import ServiceHarness.Proofs.Text.Decoding
import ServiceHarness.Proofs.Text.Encoding
import ServiceHarness.Proofs.Text.Lines
import ServiceHarness.Proofs.Text.Quoting
import ServiceHarness.Proofs.Text.Sections
import ServiceHarness.Service.Basic
import ServiceHarness.Service.Violation
import ServiceHarness.Session
import ServiceHarness.Storage.Contents
import ServiceHarness.Storage.FileError
import ServiceHarness.Storage.FileSystem
import ServiceHarness.Storage.Output
import ServiceHarness.Storage.Path
import ServiceHarness.Text.Invisible
import ServiceHarness.Text.Quoted
import ServiceHarness.Text.Shown
import ServiceHarness.Text.Similarity
import ServiceHarness.Text.Utf8
