import GraphStore.Fault
import GraphStore.Index.Definition
import GraphStore.Search.Condition

/-!
Why an operation on indexes fails. A fault of records or schemas passes through; beside it there are
faults of mappings, of queries and of the backend. Only what a backend calls temporary is worth another
attempt.
-/
namespace GraphStore

/-- A key or predicate that a field's mapping does not allow. -/
inductive MappingFault where
  | unmapped (key : SchemaId) (index : String)
  | predicateNotAllowed (predicate : Predicate) (mapping : Mapping) (field : String)
  | sortOnText (field : String)
  /-- A cause that a caller puts into words. -/
  | other (text : String)
  deriving DecidableEq, Repr

/-- A query that the index asked cannot answer. -/
inductive QueryFault where
  | notIndexed (key : SchemaId) (index : String)
  | indexDisabled (index : String)
  | equalityNeeded (index : String) (key : SchemaId)
  | keyNotCovered (key : SchemaId) (index : String)
  | orOverKeys
  | emptyOr
  | negation
  | notEquality
  | fieldDisabled (field index : String) (status : IndexStatus)
  | invalidDistance (kilometres : Binary64)
  | predicateMismatch (predicate : Predicate) (type : DataType) (field : String)
  | distanceOnString (field : String)
  | unterminatedQuote (raw : String)
  | unknownName (name : String)
  | other (text : String)
  deriving DecidableEq, Repr

structure BackendFault where
  temporary : Bool
  message : String
  deriving DecidableEq, Repr

inductive IndexFault where
  | core (fault : Fault)
  | schemaViolation (cause : MappingFault)
  | unknownIndex (name : String)
  | backend (fault : BackendFault)
  | invalidQuery (cause : QueryFault)
  deriving DecidableEq, Repr

def MappingFault.message : MappingFault → String
  | unmapped key index => s!"key {key.text} is not mapped in external index '{index}'"
  | predicateNotAllowed predicate mapping field =>
    s!"predicate {predicate.shown} is not allowed on {mapping.name} field '{field}'"
  | sortOnText field => s!"cannot sort on analyzed text field '{field}'"
  | other text => text

def QueryFault.message : QueryFault → String
  | notIndexed key index => s!"key {key.text} is not indexed by '{index}'"
  | indexDisabled index => s!"index '{index}' is disabled"
  | equalityNeeded index key => s!"index '{index}' needs an equality on key {key.text}"
  | keyNotCovered key index => s!"key {key.text} is not covered by index '{index}'"
  | orOverKeys => "OR branches of a composite query must constrain the same key"
  | emptyOr => "empty OR in composite query"
  | negation => "composite indexes cannot answer negations"
  | notEquality => "composite indexes only answer equality conditions"
  | fieldDisabled field index status => s!"field '{field}' of index '{index}' is {status.word}"
  | invalidDistance km => "invalid distance " ++ Decimal.plain.text km
  | predicateMismatch predicate type field =>
    s!"predicate {predicate.shown} does not apply to {type.name} values of field '{field}'"
  | distanceOnString field => s!"geo predicate on string value of field '{field}'"
  | unterminatedQuote raw => s!"unterminated quoted key in '{raw}'"
  | unknownName name => s!"unknown key '{name}' in raw query"
  | other text => text

namespace BackendFault

def word (f : BackendFault) : String := if f.temporary then "temporary" else "permanent"

def text (f : BackendFault) : String := s!"{f.word} backend error: {f.message}"

end BackendFault

namespace IndexFault

/-- An index that is looked up by id and is not there. -/
def unknownId (id : SchemaId) : IndexFault := unknownIndex id.text

def message : IndexFault → String
  | core fault => fault.message
  | schemaViolation cause => "schema violation: " ++ cause.message
  | unknownIndex name => "unknown index: " ++ name
  | backend fault => fault.text
  | invalidQuery cause => "invalid query: " ++ cause.message

def kind : IndexFault → String
  | core fault => fault.kind
  | schemaViolation _ => "SchemaViolation"
  | unknownIndex _ => "UnknownIndex"
  | backend _ => "Backend"
  | invalidQuery _ => "InvalidQuery"

def isRetryable : IndexFault → Bool
  | backend fault => fault.temporary
  | _ => false

end IndexFault

/-- A result of records and schemas among those of indexes. -/
def liftFault {α : Type} (e : Except Fault α) : Except IndexFault α := e.mapError .core

end GraphStore
