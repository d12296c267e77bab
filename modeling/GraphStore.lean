import GraphStore.Attempt
import GraphStore.Bytes.Above
import GraphStore.Bytes.BigEndian
import GraphStore.Bytes.Reading
import GraphStore.Bytes.Writing
import GraphStore.Calendar.Date
import GraphStore.Calendar.Rfc3339
import GraphStore.Calendar.Timestamp
import GraphStore.Codec.Attribute
import GraphStore.Codec.Compact
import GraphStore.Codec.Ordered
import GraphStore.Decimal.Binary64
import GraphStore.Decimal.Notation
import GraphStore.Decimal.Shortest
import GraphStore.Digest.Sha256
import GraphStore.Fault
import GraphStore.Graph.Direction
import GraphStore.Graph.Relation
import GraphStore.Graph.Vertex
import GraphStore.Identifier
import GraphStore.Index.Batch
import GraphStore.Index.Catalog
import GraphStore.Index.CompositeKey
import GraphStore.Index.DefaultField
import GraphStore.Index.Definition
import GraphStore.Index.Document
import GraphStore.Index.Element
import GraphStore.Index.Entry
import GraphStore.Index.Fault
import GraphStore.Index.FieldNames
import GraphStore.Index.FieldSpace
import GraphStore.Index.FieldValue
import GraphStore.Index.Planning
import GraphStore.Index.Settings
import GraphStore.Index.Update
import GraphStore.Interchange.Definition
import GraphStore.Interchange.Document
import GraphStore.Interchange.Form
import GraphStore.Interchange.Graph
import GraphStore.Interchange.Schema
import GraphStore.Interchange.Settings
import GraphStore.Interchange.Value
import GraphStore.Json
import GraphStore.Json.Compact
import GraphStore.Json.Written
import GraphStore.KeyMap
import GraphStore.Proofs.Attempt
import GraphStore.Proofs.Bytes.Above
import GraphStore.Proofs.Bytes.Forms
import GraphStore.Proofs.Bytes.Order
import GraphStore.Proofs.Bytes.Reading
import GraphStore.Proofs.Calendar.Date
import GraphStore.Proofs.Calendar.Rfc3339
import GraphStore.Proofs.Calendar.Timestamp
import GraphStore.Proofs.Codec.Attribute
import GraphStore.Proofs.Codec.Order
import GraphStore.Proofs.Codec.Refusal
import GraphStore.Proofs.Codec.RoundTrip
import GraphStore.Proofs.Codec.Shortage
import GraphStore.Proofs.Decimal.Notation
import GraphStore.Proofs.Decimal.Shortest
import GraphStore.Proofs.Index.Accumulation
import GraphStore.Proofs.Index.Assembly
import GraphStore.Proofs.Index.Batch
import GraphStore.Proofs.Index.Catalog
import GraphStore.Proofs.Index.CatalogUse
import GraphStore.Proofs.Index.Choices
import GraphStore.Proofs.Index.CompositeKey
import GraphStore.Proofs.Index.Contributions
import GraphStore.Proofs.Index.Document
import GraphStore.Proofs.Index.Dormant
import GraphStore.Proofs.Index.Entry
import GraphStore.Proofs.Index.FailedPlan
import GraphStore.Proofs.Index.FieldAgreement
import GraphStore.Proofs.Index.FieldCache
import GraphStore.Proofs.Index.FieldContent
import GraphStore.Proofs.Index.FieldHistory
import GraphStore.Proofs.Index.FieldMirror
import GraphStore.Proofs.Index.FieldNames
import GraphStore.Proofs.Index.FieldRun
import GraphStore.Proofs.Index.FieldSpace
import GraphStore.Proofs.Index.FieldWrites
import GraphStore.Proofs.Index.Inertness
import GraphStore.Proofs.Index.Maintenance
import GraphStore.Proofs.Index.Matching
import GraphStore.Proofs.Index.NameChoice
import GraphStore.Proofs.Index.Origins
import GraphStore.Proofs.Index.Placement
import GraphStore.Proofs.Index.Planning
import GraphStore.Proofs.Index.Registration
import GraphStore.Proofs.Index.Reindexing
import GraphStore.Proofs.Index.RelationPlan
import GraphStore.Proofs.Index.RelationTotality
import GraphStore.Proofs.Index.Representatives
import GraphStore.Proofs.Index.SetGrowth
import GraphStore.Proofs.Index.SharedEntries
import GraphStore.Proofs.KeyMap
import GraphStore.Proofs.Record.Collision
import GraphStore.Proofs.Record.Ends
import GraphStore.Proofs.Record.Header
import GraphStore.Proofs.Record.KeyOrder
import GraphStore.Proofs.Record.Memo
import GraphStore.Proofs.Record.Offset
import GraphStore.Proofs.Record.Parts
import GraphStore.Proofs.Record.Refusal
import GraphStore.Proofs.Record.RoundTrip
import GraphStore.Proofs.Record.Slice
import GraphStore.Proofs.Record.SortFields
import GraphStore.Proofs.Record.Totality
import GraphStore.Proofs.Schema
import GraphStore.Proofs.Schema.Growth
import GraphStore.Proofs.Search.Constraints
import GraphStore.Proofs.Search.EqualKeys
import GraphStore.Proofs.Search.KeyLookup
import GraphStore.Proofs.Search.Lossless
import GraphStore.Proofs.Search.Lowering
import GraphStore.Proofs.Search.MappingGates
import GraphStore.Proofs.Search.Meaning
import GraphStore.Proofs.Search.RawAgreement
import GraphStore.Proofs.Search.References
import GraphStore.Proofs.Text.Hex
import GraphStore.Proofs.Text.Utf8
import GraphStore.Proofs.Value.Equality
import GraphStore.Proofs.Value.Order
import GraphStore.Proofs.Value.SearchForm
import GraphStore.Record
import GraphStore.Record.Decoded
import GraphStore.Record.Header
import GraphStore.Record.Layout
import GraphStore.Record.Memo
import GraphStore.Record.Slice
import GraphStore.Schema
import GraphStore.Schema.RelationType
import GraphStore.Schema.Types
import GraphStore.Search.Clause
import GraphStore.Search.Condition
import GraphStore.Search.KeyLookup
import GraphStore.Search.RawQuery
import GraphStore.Search.Reference
import GraphStore.Search.Request
import GraphStore.Terse.Condition
import GraphStore.Terse.Graph
import GraphStore.Terse.Mutation
import GraphStore.Terse.Record
import GraphStore.Terse.Schema
import GraphStore.Terse.Update
import GraphStore.Terse.Value
import GraphStore.Text.Alphanumeric
import GraphStore.Text.Extender
import GraphStore.Text.Hex
import GraphStore.Text.Lowercase
import GraphStore.Text.Quoted
import GraphStore.Text.Span
import GraphStore.Text.Unprintable
import GraphStore.Text.Utf8
import GraphStore.Text.White
import GraphStore.Value
import GraphStore.Value.Text
