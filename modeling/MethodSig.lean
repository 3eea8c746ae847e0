import MethodSig.Batch.Compiler
import MethodSig.Batch.Context
import MethodSig.Batch.Diagnostic
import MethodSig.Batch.Hook
import MethodSig.Batch.Sources
import MethodSig.Catalog.Basic
import MethodSig.Catalog.Binding
import MethodSig.Catalog.Core
import MethodSig.Catalog.Declaration
import MethodSig.Catalog.Directory
import MethodSig.Catalog.Json
import MethodSig.Catalog.QualifiedName
import MethodSig.Catalog.Scan
import MethodSig.Catalog.Scope
import MethodSig.CommandLine.Command
import MethodSig.CommandLine.Run
import MethodSig.CommandLine.Words
import MethodSig.Console.Markup
import MethodSig.Console.Print
import MethodSig.Console.Table
import MethodSig.Console.Wrap
import MethodSig.FileTree.Basic
import MethodSig.FileTree.Pattern
import MethodSig.FileTree.Wildcard
import MethodSig.Json.Binary64
import MethodSig.Json.Reader
import MethodSig.Json.Value
import MethodSig.Json.Writer
import MethodSig.Log
import MethodSig.Main
import MethodSig.Method.Adapter
import MethodSig.Method.Basic
import MethodSig.Method.Consistency
import MethodSig.Method.Json
import MethodSig.Method.Order
import MethodSig.Method.UniqueName
import MethodSig.Proofs.Batch.Attempt
import MethodSig.Proofs.Batch.Compiler
import MethodSig.Proofs.Batch.Diagnostics
import MethodSig.Proofs.Batch.Duplicates
import MethodSig.Proofs.Batch.Finished
import MethodSig.Proofs.Batch.OrderInvariance
import MethodSig.Proofs.Batch.Reference
import MethodSig.Proofs.Batch.Refusals
import MethodSig.Proofs.Batch.RoundTrip
import MethodSig.Proofs.Catalog.Binding
import MethodSig.Proofs.Catalog.Comments
import MethodSig.Proofs.Catalog.Entries
import MethodSig.Proofs.Catalog.Merge
import MethodSig.Proofs.Catalog.Naming
import MethodSig.Proofs.Catalog.Nesting
import MethodSig.Proofs.Catalog.Parameters
import MethodSig.Proofs.Catalog.QualifiedName
import MethodSig.Proofs.Catalog.Scan
import MethodSig.Proofs.Catalog.Scope
import MethodSig.Proofs.Catalog.Search
import MethodSig.Proofs.Catalog.Unfinished
import MethodSig.Proofs.Json.Number
import MethodSig.Proofs.Json.RoundTrip
import MethodSig.Proofs.Json.ShortNumbers
import MethodSig.Proofs.Json.String
import MethodSig.Proofs.Method.Adapter
import MethodSig.Proofs.Method.Consistency
import MethodSig.Proofs.Method.Described
import MethodSig.Proofs.Method.Json
import MethodSig.Proofs.Method.Numbering
import MethodSig.Proofs.Method.Order
import MethodSig.Proofs.Method.SharedKeys
import MethodSig.Proofs.Method.UniqueName
import MethodSig.Proofs.Signature.Cells
import MethodSig.Proofs.Signature.Clean
import MethodSig.Proofs.Signature.Commas
import MethodSig.Proofs.Signature.Generics
import MethodSig.Proofs.Signature.Grammar
import MethodSig.Proofs.Signature.Marks
import MethodSig.Proofs.Signature.Modifier
import MethodSig.Proofs.Signature.Pairs
import MethodSig.Proofs.Signature.Rendered
import MethodSig.Proofs.Signature.Spacing
import MethodSig.Proofs.Signature.Tokens
import MethodSig.Proofs.Signature.Written
import MethodSig.Proofs.Source.CommentedSurvey
import MethodSig.Proofs.Source.Comments
import MethodSig.Proofs.Source.Nesting
import MethodSig.Proofs.Source.Parameters
import MethodSig.Proofs.Source.Readings
import MethodSig.Proofs.Source.Survey
import MethodSig.Proofs.Text.Blank
import MethodSig.Proofs.Text.Decodes
import MethodSig.Proofs.Text.Lines
import MethodSig.Proofs.Text.Order
import MethodSig.Proofs.Text.Spacing
import MethodSig.Proofs.Text.Utf8
import MethodSig.Proofs.Text.Word
import MethodSig.Proofs.Type.Canonical
import MethodSig.Proofs.Type.Checked
import MethodSig.Proofs.Type.Resolver
import MethodSig.Proofs.Type.Suffix
import MethodSig.Proofs.Type.Text
import MethodSig.Proofs.Validation.Record
import MethodSig.Proofs.Validation.Scalar
import MethodSig.Settings.Basic
import MethodSig.Settings.Directory
import MethodSig.Settings.File
import MethodSig.Signature.Argument
import MethodSig.Signature.Generics
import MethodSig.Signature.Identifier
import MethodSig.Signature.Listing
import MethodSig.Signature.Malformed
import MethodSig.Signature.Modifier
import MethodSig.Signature.Tokens
import MethodSig.Source.Declarations
import MethodSig.Source.Grammar
import MethodSig.Source.Phrase
import MethodSig.Source.Survey
import MethodSig.Source.Token
import MethodSig.Source.Tree
import MethodSig.Source.Types
import MethodSig.Text.Blank
import MethodSig.Text.CodeRanges
import MethodSig.Text.Lines
import MethodSig.Text.Order
import MethodSig.Text.Printable
import MethodSig.Text.Quoted
import MethodSig.Text.Uppercase
import MethodSig.Text.Utf8
import MethodSig.Text.Width
import MethodSig.Text.Word
import MethodSig.Type.Descriptor
import MethodSig.Type.Resolver
import MethodSig.Type.Text
import MethodSig.Validation.Assignment
import MethodSig.Validation.Fault
import MethodSig.Validation.Record
import MethodSig.Validation.Scalar
