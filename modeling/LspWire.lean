import LspWire.Command.FileSystem
import LspWire.Command.Invocation
import LspWire.Command.Machine
import LspWire.Command.Manual
import LspWire.Command.Run
import LspWire.Command.Word
import LspWire.Construct
import LspWire.Context
import LspWire.Decode
import LspWire.Encode
import LspWire.Error
import LspWire.Fault
import LspWire.Json.Basic
import LspWire.Json.Display
import LspWire.Json.Outline
import LspWire.Json.Printer
import LspWire.Json.Reader
import LspWire.Main
import LspWire.Number.Binary64
import LspWire.Number.Decimal
import LspWire.Number.Integer
import LspWire.Protocol.Action
import LspWire.Protocol.Capability
import LspWire.Protocol.Catalog
import LspWire.Protocol.Completion
import LspWire.Protocol.Diagnostic
import LspWire.Protocol.Document
import LspWire.Protocol.Draft
import LspWire.Protocol.Edit
import LspWire.Protocol.Highlighting
import LspWire.Protocol.Hover
import LspWire.Protocol.Lifecycle
import LspWire.Protocol.Message
import LspWire.Protocol.Method
import LspWire.Protocol.Names
import LspWire.Protocol.Navigation
import LspWire.Protocol.Notebook
import LspWire.Protocol.Progress
import LspWire.Protocol.Refactoring
import LspWire.Protocol.Schema
import LspWire.Protocol.Session
import LspWire.Protocol.Synchronization
import LspWire.Protocol.Tokens
import LspWire.Protocol.Unions
import LspWire.Protocol.Window
import LspWire.Protocol.Workspace
import LspWire.Proofs.Association
import LspWire.Proofs.Induction
import LspWire.Proofs.Reading.Basic
import LspWire.Proofs.Reading.Choice
import LspWire.Proofs.Reading.Enumeration
import LspWire.Proofs.Reading.Record
import LspWire.Sample
import LspWire.Schema.Declaration
import LspWire.Schema.Type
import LspWire.Text.Blank
import LspWire.Text.Digit
import LspWire.Text.Line
import LspWire.Text.Percent
import LspWire.Text.Printable
import LspWire.Text.Quoted
import LspWire.Text.Utf8
import LspWire.Token.Base64
import LspWire.Token.Packing
import LspWire.Uri.Basic
import LspWire.Uri.Host
import LspWire.Uri.Path
import LspWire.Value.Basic
import LspWire.Value.Equality
import LspWire.Value.Order
import LspWire.Value.Part
import LspWire.Version
import LspWire.Proofs.Declarations
import LspWire.Proofs.References
import LspWire.Proofs.Available
import LspWire.Proofs.Checks
import LspWire.Proofs.Regular
import LspWire.Proofs.Tokens
import LspWire.Proofs.Typing
import LspWire.Proofs.Wire
import LspWire.Proofs.Writing
import LspWire.Proofs.Shapes
import LspWire.Proofs.Cells
import LspWire.Proofs.Separation
import LspWire.Proofs.SameData
import LspWire.Proofs.Nulls
import LspWire.Proofs.Alignment
import LspWire.Proofs.Orderly
import LspWire.Proofs.Alternatives
import LspWire.Proofs.RoundTrip.Alike
import LspWire.Proofs.RoundTrip.Records
import LspWire.Proofs.RoundTrip.Built
import LspWire.Proofs.RoundTrip.Returned
import LspWire.Proofs.RoundTrip.Choices
import LspWire.Proofs.RoundTrip.Fields
import LspWire.Proofs.RoundTrip.Decoded
import LspWire.Proofs.RoundTrip.Pruned
import LspWire.Proofs.RoundTrip.Normalized
import LspWire.Proofs.Failures
import LspWire.Proofs.Gates
import LspWire.Proofs.Surfaces
import LspWire.Proofs.Messages
import LspWire.Proofs.Withheld
import LspWire.Proofs.Conformance
import LspWire.Proofs.Edits
import LspWire.Proofs.RoundTrip.Altered
import LspWire.Proofs.RoundTrip.Identical
import LspWire.Proofs.RoundTrip.Rewritten
import LspWire.Proofs.Notation.Numbers
import LspWire.Proofs.Notation.Rounding
import LspWire.Proofs.Notation.Strings
import LspWire.Proofs.Notation.Floats
import LspWire.Proofs.Notation.Accepted
import LspWire.Proofs.Notation.Outline
import LspWire.Proofs.RoundTrip.Notation
import LspWire.Proofs.NormalForms
import LspWire.Proofs.Faults.Parts
import LspWire.Proofs.Faults.Places
import LspWire.Proofs.Faults.Repairs
import LspWire.Proofs.Highlighting
import LspWire.Proofs.Resolution
import LspWire.Proofs.Unpacking
import LspWire.Proofs.OpenEnumerations
import LspWire.Proofs.Scopes
import LspWire.Proofs.KeyOrder.Data
import LspWire.Proofs.KeyOrder.Reading
import LspWire.Proofs.KeyOrder.Decoding
import LspWire.Proofs.Uri.Percent
import LspWire.Proofs.Uri.Parts
import LspWire.Proofs.Uri.Written
import LspWire.Proofs.Uri.NormalForm
import LspWire.Proofs.Uri.Segments
import LspWire.Proofs.Uri.Denoted
import LspWire.Proofs.Uri.Resolved
import LspWire.Proofs.Command.Scanning
import LspWire.Proofs.Command.Openings
import LspWire.Proofs.Command.Outcomes
