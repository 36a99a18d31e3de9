import StreamTable.Action
import StreamTable.Avro.Canonical
import StreamTable.Avro.Datum
import StreamTable.Avro.Datum.Binary
import StreamTable.Avro.Datum.Read
import StreamTable.Avro.Datum.Write
import StreamTable.Avro.Descriptor
import StreamTable.Avro.Document.Grammar
import StreamTable.Avro.Document.Reader
import StreamTable.Avro.Document.Store
import StreamTable.Avro.Logical
import StreamTable.Avro.NullFree
import StreamTable.Avro.Schema
import StreamTable.Avro.Schema.Parser
import StreamTable.Avro.Validation
import StreamTable.Calendar.Clock
import StreamTable.Calendar.Date
import StreamTable.Calendar.DateTime
import StreamTable.CommandLine.Options
import StreamTable.CommandLine.Run
import StreamTable.Config.Settings
import StreamTable.Config.Source
import StreamTable.Failure
import StreamTable.Json.Printer
import StreamTable.Json.Reader
import StreamTable.Log.Context
import StreamTable.Log.Entry
import StreamTable.Log.Line
import StreamTable.Log.Template
import StreamTable.Main
import StreamTable.Number.Decimal
import StreamTable.Number.Double
import StreamTable.Number.Reading
import StreamTable.Number.Rounded
import StreamTable.Number.Shortest
import StreamTable.Record.ActiveSchema
import StreamTable.Record.Decoder
import StreamTable.Record.Entry
import StreamTable.Record.FieldName
import StreamTable.Record.PlainValue
import StreamTable.Record.Receipt
import StreamTable.Sink.Coordinator
import StreamTable.Sink.Loop
import StreamTable.Sink.Session
import StreamTable.Sink.Threads
import StreamTable.Sink.Window
import StreamTable.Store.DataFile
import StreamTable.Store.DataFile.Container
import StreamTable.Store.Disk
import StreamTable.Store.Fleet
import StreamTable.Store.Manifest
import StreamTable.Store.Overview
import StreamTable.Store.Path
import StreamTable.Store.Table
import StreamTable.Store.Writer
import StreamTable.Table.Backend
import StreamTable.Table.Scripted
import StreamTable.Text.Blank
import StreamTable.Text.Digit
import StreamTable.Text.Identifier
import StreamTable.Text.Lines
import StreamTable.Text.Printable
import StreamTable.Text.Quoted
import StreamTable.Text.Ranges
import StreamTable.Text.Search
import StreamTable.Text.Utf8
import StreamTable.Uuid
import StreamTable.Value.Basic
import StreamTable.Value.Elements
import StreamTable.Value.Equality
import StreamTable.Value.Floating
import StreamTable.Value.Order
import StreamTable.Value.Text
import StreamTable.Yaml.Content
import StreamTable.Yaml.Cursor
import StreamTable.Yaml.Node
import StreamTable.Yaml.Node.Value
import StreamTable.Yaml.Tag
import StreamTable.Yaml.Timestamp
import StreamTable.Yaml.Token
import StreamTable.Yaml.Token.Lexer
import StreamTable.Yaml.Token.Property
import StreamTable.Yaml.Token.Scalar
import StreamTable.Proofs.Action.Ends
import StreamTable.Proofs.Action.Results
import StreamTable.Proofs.Table.Books
import StreamTable.Proofs.Sink.Coordinator
import StreamTable.Proofs.Sink.Reception
import StreamTable.Proofs.Sink.Loop
import StreamTable.Proofs.Sink.History
import StreamTable.Proofs.Action.Mirror
import StreamTable.Proofs.Sink.Mirror
import StreamTable.Proofs.Table.Journal
import StreamTable.Proofs.Sink.Acknowledgement
import StreamTable.Proofs.Store.Disk
import StreamTable.Proofs.Store.Manifest
import StreamTable.Proofs.Store.Commit
import StreamTable.Proofs.Store.Deliveries
import StreamTable.Proofs.Sink.Survival
import StreamTable.Proofs.Avro.Shape
import StreamTable.Proofs.Store.SchemaChange
import StreamTable.Proofs.Table.Trace
import StreamTable.Proofs.Sink.Discipline
import StreamTable.Proofs.Sink.Patience
import StreamTable.Proofs.Sink.Timeliness
import StreamTable.Proofs.Sink.Replacement
import StreamTable.Proofs.Sink.Batching
import StreamTable.Proofs.Store.SharedTable
import StreamTable.Proofs.Store.Undertaking
import StreamTable.Proofs.Store.Interruption
import StreamTable.Proofs.Store.Committing
import StreamTable.Proofs.Record.Feed
import StreamTable.Proofs.Sink.Interleaving
import StreamTable.Proofs.Sink.Shutdown
import StreamTable.Proofs.Sink.Adoption
import StreamTable.Proofs.Store.Closing
import StreamTable.Proofs.Store.Shutdown
import StreamTable.Proofs.Store.Attuned
import StreamTable.Proofs.CommandLine.ExitStatus
import StreamTable.Proofs.Sink.Handover
import StreamTable.Proofs.Avro.Reading
import StreamTable.Proofs.Avro.Regular
import StreamTable.Proofs.Avro.Reordering
import StreamTable.Proofs.Avro.Stripping
import StreamTable.Proofs.Avro.Everywhere
import StreamTable.Proofs.Avro.Settling
import StreamTable.Proofs.Avro.Settled
import StreamTable.Proofs.Avro.Faults
import StreamTable.Proofs.Avro.ReadAlike
import StreamTable.Proofs.Avro.Canonical
import StreamTable.Proofs.Avro.Sound
import StreamTable.Proofs.Avro.Fitting
import StreamTable.Proofs.Avro.Encodable
import StreamTable.Proofs.Avro.Document.Store
import StreamTable.Proofs.Avro.Document.Grammar
import StreamTable.Proofs.Avro.Document.Reader
import StreamTable.Proofs.Record.Projection
import StreamTable.Proofs.Avro.NormalForm
import StreamTable.Proofs.Record.Lossless
import StreamTable.Proofs.Avro.Lossless
import StreamTable.Proofs.Record.Refusal
import StreamTable.Proofs.Json.Quotation
import StreamTable.Proofs.Json.RoundTrip
import StreamTable.Proofs.Record.PlainType
import StreamTable.Proofs.Record.FieldName
import StreamTable.Proofs.Record.PlainValue
import StreamTable.Proofs.Json.Ascii
import StreamTable.Proofs.Record.InlineSchema
import StreamTable.Proofs.Record.Complaint
import StreamTable.Proofs.Store.Cosmetic
import StreamTable.Proofs.Record.Recomputed
import StreamTable.Proofs.Record.Identity
import StreamTable.Proofs.Log.Nesting
import StreamTable.Proofs.Json.Writable
import StreamTable.Proofs.Log.Moment
import StreamTable.Proofs.Log.JsonLine
import StreamTable.Proofs.Action.Comes
import StreamTable.Proofs.Value.Merging
import StreamTable.Proofs.Config.Thresholds
import StreamTable.Proofs.Config.Told
import StreamTable.Proofs.Config.Loading
import StreamTable.Proofs.Sink.PlainField
