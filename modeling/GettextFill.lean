import GettextFill.Catalog.Basic
import GettextFill.Catalog.Entry
import GettextFill.Catalog.Escape
import GettextFill.Catalog.Field
import GettextFill.Catalog.Line
import GettextFill.Catalog.Stage
import GettextFill.CommandLine.Basic
import GettextFill.CommandLine.Suggestion
import GettextFill.CommandLine.Switch
import GettextFill.Dictionary
import GettextFill.Document
import GettextFill.Document.Json
import GettextFill.Document.Shown
import GettextFill.Environment.File
import GettextFill.Environment.Load
import GettextFill.Environment.Reference
import GettextFill.Fault
import GettextFill.FileTree
import GettextFill.Files
import GettextFill.Fill
import GettextFill.Fill.Unchecked
import GettextFill.Host
import GettextFill.Input
import GettextFill.Language
import GettextFill.Log
import GettextFill.Logger
import GettextFill.Main
import GettextFill.Message.Basic
import GettextFill.Message.Reader
import GettextFill.Message.Shelf
import GettextFill.Message.Token
import GettextFill.Moment
import GettextFill.Nonce
import GettextFill.Number
import GettextFill.OsError
import GettextFill.Path
import GettextFill.Program
import GettextFill.Proofs.Calm
import GettextFill.Proofs.Catalog.Account
import GettextFill.Proofs.Catalog.Concatenation
import GettextFill.Proofs.Catalog.Field
import GettextFill.Proofs.Catalog.Keyword
import GettextFill.Proofs.Catalog.Move
import GettextFill.Proofs.Catalog.Parts
import GettextFill.Proofs.Catalog.Reading
import GettextFill.Proofs.Catalog.Reread
import GettextFill.Proofs.Catalog.Rewriting
import GettextFill.Proofs.Catalog.RoundTrip
import GettextFill.Proofs.Catalog.Shape
import GettextFill.Proofs.Catalog.Wrapped
import GettextFill.Proofs.FileTree.Beside
import GettextFill.Proofs.FileTree.Content
import GettextFill.Proofs.FileTree.Place
import GettextFill.Proofs.FileTree.Shape
import GettextFill.Proofs.Files
import GettextFill.Proofs.Dictionary
import GettextFill.Proofs.Document.Json
import GettextFill.Proofs.Fill.Basic
import GettextFill.Proofs.Fill.Count
import GettextFill.Proofs.Fill.Discard
import GettextFill.Proofs.Fill.Malformed
import GettextFill.Proofs.Fill.Preservation
import GettextFill.Proofs.Fill.Refill
import GettextFill.Proofs.Host
import GettextFill.Proofs.Language
import GettextFill.Proofs.Message.Token
import GettextFill.Proofs.Path
import GettextFill.Proofs.Run.All
import GettextFill.Proofs.Run.Command
import GettextFill.Proofs.Run.Conservation
import GettextFill.Proofs.Run.Ending
import GettextFill.Proofs.Run.Language
import GettextFill.Proofs.Run.Order
import GettextFill.Proofs.Settings
import GettextFill.Proofs.Table
import GettextFill.Proofs.Table.Acceptance
import GettextFill.Proofs.Text.Lines
import GettextFill.Proofs.Verification
import GettextFill.Readers
import GettextFill.Readers.Standard
import GettextFill.Report
import GettextFill.Report.Recorded
import GettextFill.Run.All
import GettextFill.Run.Command
import GettextFill.Run.Language
import GettextFill.Run.Unchecked
import GettextFill.Settings
import GettextFill.Settings.Lines
import GettextFill.Settings.Load
import GettextFill.Settings.Merge
import GettextFill.Settings.Place
import GettextFill.Settings.Written
import GettextFill.Table
import GettextFill.Table.File
import GettextFill.Text
import GettextFill.Text.Encoding
import GettextFill.Text.Quoted
import GettextFill.Text.Units
import GettextFill.Text.Upper
import GettextFill.Text.Utf8
import GettextFill.Verification
import GettextFill.Yaml.Cursor
import GettextFill.Yaml.Node
import GettextFill.Yaml.Plain
import GettextFill.Yaml.Scalar
import GettextFill.Proofs.Path.Normal
import GettextFill.Proofs.Path.Confinement
import GettextFill.Proofs.Catalog.Escape
import GettextFill.Proofs.Files.Whole
