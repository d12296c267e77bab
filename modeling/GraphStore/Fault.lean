import GraphStore.Graph.Direction
import GraphStore.Identifier
import GraphStore.Text.Hex
import GraphStore.Value.Text

/-!
Why an operation on records and schemas fails. Each constructor is a cause; `Fault.message` words all of
them. A fault is fatal when a record, a value and the schema contradict each other: trying again cannot
help.
-/
namespace GraphStore

/-- Bytes that are not what a writer leaves. -/
inductive EncodingFault where
  | endOfInput
  | missingTerminator
  | invalidEscape (second : UInt8)
  | invalidVarintLength (length : UInt8)
  | invalidUtf8 (fault : Utf8.Fault)
  | dateOutOfRange (millis : Int)
  | trailingValueBytes
  | unknownTag (tag : UInt8)
  | invalidSlot (slot : Nat)
  | invalidPresence (byte : UInt8)
  | shortDigest
  | digestMismatch
  | trailingKeyBytes
  | malformedColumn
  | invalidInVertexMarker (byte : UInt8)
  | trailingEntryBytes
  | payloadTooLong
  /-- A cause that a caller puts into words. -/
  | other (text : String)
  deriving DecidableEq, Repr

/-- Arguments that cannot be honoured. -/
inductive ValidationFault where
  | reservedType (id : SchemaId)
  | typeOutOfRange (id : SchemaId)
  | typeTaken (id : SchemaId)
  | typeNameTaken (name : String)
  | constrainedSortKey (type : String)
  | genericInlined (key : SchemaId) (type : String)
  | labelTaken (id : SchemaId)
  | notPropertyKey (id : SchemaId)
  | bothHasNoSlot
  | nothingBigger
  | offsetPastEnd (offset size : Nat)
  | positionPastArity (position arity : Nat)
  | bothConstrained
  | tooManyIntervals (given keys : Nat)
  | rangeNotLast
  | adjacentNotNarrowing (type : String)
  | adjacentAfterRange
  | emptyIndexName
  | noIndexFields (index : String)
  | repeatedIndexKey (index : String) (key : SchemaId)
  | indexNameTaken (index : String)
  | indexTaken (id : SchemaId)
  | keyAlreadyIndexed (key : SchemaId) (index : String)
  | other (text : String)
  deriving DecidableEq, Repr

/-- Records, values and schema that contradict each other. -/
inductive InvariantFault where
  | genericUnordered
  | genericUntagged
  | genericKeyOrdered
  | relationCategory (relation : RelationId) (type : String)
  | recordCategory (type : String)
  | keyEnd (type : String) (position offset : Nat)
  | missingValue (type : String)
  | fieldCount (index : String) (fields values : Nat)
  | foreignKey (id : SchemaId) (index : String)
  | elementCategory (element stored : ElementCategory) (index : String)
  | other (text : String)
  deriving DecidableEq, Repr

inductive Fault where
  | encoding (cause : EncodingFault)
  | typeMismatch (expected actual : String) (shown : Option String)
  | validation (cause : ValidationFault)
  | unknownType (id : SchemaId)
  | invariant (cause : InvariantFault)
  deriving DecidableEq, Repr

def EncodingFault.message : EncodingFault → String
  | endOfInput => "unexpected end of input"
  | missingTerminator => "missing terminator in escaped bytes"
  | invalidEscape b => "invalid escape sequence: 0x00 0x" ++ Hex.byte b
  | invalidVarintLength n => s!"invalid varint length: {n.toNat}"
  | invalidUtf8 f => "invalid UTF-8: " ++ f.message
  | dateOutOfRange ms => s!"date out of range: {ms}ms"
  | trailingValueBytes => "trailing bytes after ordered value"
  | unknownTag t => "unknown value type tag: 0x" ++ Hex.number t.toNat
  | invalidSlot n => s!"invalid direction id: {n}"
  | invalidPresence b => "invalid presence byte: 0x" ++ Hex.byte b
  | shortDigest => "index key shorter than its digest prefix"
  | digestMismatch => "index key digest prefix mismatch"
  | trailingKeyBytes => "trailing bytes after index key"
  | malformedColumn => "malformed index entry column"
  | invalidInVertexMarker b => "invalid in-vertex marker 0x" ++ Hex.byte b
  | trailingEntryBytes => "trailing bytes after index entry"
  | payloadTooLong => "payload too long"
  | other text => text

def ValidationFault.message : ValidationFault → String
  | reservedType id => s!"type id {id.text} is reserved"
  | typeOutOfRange id => s!"type id {id.text} is out of range"
  | typeTaken id => s!"type id {id.text} already registered"
  | typeNameTaken name => s!"type name '{name}' already registered"
  | constrainedSortKey type => s!"constrained type '{type}' cannot declare a sort key"
  | genericInlined key type => s!"generic key {key.text} cannot be inlined into '{type}'"
  | labelTaken id => s!"label id {id.text} already registered"
  | notPropertyKey id => s!"relation type {id.text} is not a property key"
  | bothHasNoSlot => "BOTH has no single header slot"
  | nothingBigger => "no buffer is bigger than an all-0xFF prefix"
  | offsetPastEnd offset size => s!"value offset {offset} past record of {size} bytes"
  | positionPastArity position arity =>
    s!"position {position} out of range for relation of arity {arity}"
  | bothConstrained => "BOTH direction cannot be combined with sort-key constraints"
  | tooManyIntervals given keys => s!"{given} intervals for sort key of length {keys}"
  | rangeNotLast => "a range interval must be the last sort-key constraint"
  | adjacentNotNarrowing type => s!"adjacent vertex cannot narrow a slice of type '{type}'"
  | adjacentAfterRange => "adjacent vertex cannot follow a sort-key range"
  | emptyIndexName => "index name cannot be empty"
  | noIndexFields index => s!"index '{index}' must have at least one field"
  | repeatedIndexKey index key => s!"index '{index}' lists key {key.text} twice"
  | indexNameTaken index => s!"index '{index}' already exists"
  | indexTaken id => s!"index id {id.text} already in use"
  | keyAlreadyIndexed key index => s!"key {key.text} already indexed by '{index}'"
  | other text => text

def InvariantFault.message : InvariantFault → String
  | genericUnordered => "generic values have no ordered encoding"
  | genericUntagged => "generic values must be read tagged"
  | genericKeyOrdered => "generic keys cannot be ordered"
  | relationCategory relation type =>
    s!"relation {relation} does not match the category of type '{type}'"
  | recordCategory type => s!"record category does not match type '{type}'"
  | keyEnd type position offset =>
    s!"key of type '{type}' ends at {position} but value offset is {offset}"
  | missingValue type => s!"constrained relation of type '{type}' has no value"
  | fieldCount index fields values => s!"index '{index}' has {fields} fields, got {values} values"
  | foreignKey id index => s!"key of index {id.text} decoded as index '{index}'"
  | elementCategory element stored index =>
    s!"{element.name} element cannot be stored in {stored.name} index '{index}'"
  | other text => text

namespace Fault

def message : Fault → String
  | encoding cause => "encoding error: " ++ cause.message
  | typeMismatch expected actual shown =>
    s!"type mismatch: expected {expected}, got {actual}"
      ++ (match shown with | some text => s!" (value: {text})" | none => "")
  | validation cause => "validation error: " ++ cause.message
  | unknownType id => "unknown relation type: " ++ id.text
  | invariant cause => "invariant violated: " ++ cause.message

def kind : Fault → String
  | encoding _ => "Encoding"
  | typeMismatch .. => "TypeMismatch"
  | validation _ => "Validation"
  | unknownType _ => "UnknownType"
  | invariant _ => "Invariant"

def isFatal : Fault → Bool
  | invariant _ => true
  | typeMismatch .. => true
  | unknownType _ => true
  | encoding _ => false
  | validation _ => false

/-- The most bytes of a value that a message shows. -/
def shownBytes : Nat := 100

/-- Characters from the front, as many as fit into a number of bytes. -/
def fitting (room : Nat) : List Char → List Char
  | [] => []
  | c :: cs =>
    let size := (Utf8.encodeChar c).length
    if size ≤ room then c :: fitting (room - size) cs else []

def shorten (text : String) : String :=
  if (Utf8.encode text).length ≤ shownBytes then text
  else String.ofList (fitting shownBytes text.toList) ++ "..."

/-- A value that its key does not take. -/
def mismatch (declared : DataType) (v : Value) : Fault :=
  typeMismatch declared.name v.dataType.name (some (shorten v.text))

end Fault

end GraphStore
