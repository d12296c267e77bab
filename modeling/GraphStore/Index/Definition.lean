import GraphStore.Graph.Direction
import GraphStore.Identifier

/-!
What an index is. A composite index keeps exact keys made of the values of several fields; a mixed index
keeps one document for each element on a search backend. Either covers elements of one category, and of
one label if it names one.
-/
namespace GraphStore

inductive IndexStatus where
  | installed | registered | enabled | disabled
  deriving DecidableEq, Repr

/-- How a search backend indexes strings: as analyzed text, as they stand, or both. -/
inductive Mapping where
  | default | text | string | textString
  deriving DecidableEq, Repr

/-- Whether the store manages the backend's field names or finds them given. -/
inductive MappingSource where
  | managed | external
  deriving DecidableEq, Repr

structure CompositeIndex where
  id : SchemaId
  name : String
  element : ElementCategory
  fields : List SchemaId
  cardinality : Cardinality
  status : IndexStatus
  label : Option SchemaId
  deriving DecidableEq, Repr

structure MixedField where
  key : SchemaId
  status : IndexStatus
  mapping : Mapping
  mappedName : Option String
  deriving DecidableEq, Repr

structure MixedIndex where
  id : SchemaId
  name : String
  store : String
  element : ElementCategory
  fields : List MixedField
  label : Option SchemaId
  source : MappingSource
  deriving DecidableEq, Repr

inductive IndexDefinition where
  | composite (index : CompositeIndex)
  | mixed (index : MixedIndex)
  deriving DecidableEq, Repr

namespace IndexStatus

def all : List IndexStatus := [installed, registered, enabled, disabled]

def name : IndexStatus → String
  | installed => "Installed"
  | registered => "Registered"
  | enabled => "Enabled"
  | disabled => "Disabled"

def ofName? (name : String) : Option IndexStatus := all.find? (·.name = name)

/-- The word that messages use. -/
def word : IndexStatus → String
  | installed => "installed"
  | registered => "registered"
  | enabled => "enabled"
  | disabled => "disabled"

/-- Only a disabled index misses changes. -/
def isMaintained (s : IndexStatus) : Bool := s ≠ disabled

end IndexStatus

namespace Mapping

def all : List Mapping := [default, text, string, textString]

def name : Mapping → String
  | default => "Default"
  | text => "Text"
  | string => "String"
  | textString => "TextString"

def ofName? (name : String) : Option Mapping := all.find? (·.name = name)

def isAnalyzed (m : Mapping) : Bool := m ≠ string

def isExact (m : Mapping) : Bool := m = string || m = textString

end Mapping

namespace MappingSource

def all : List MappingSource := [managed, external]

def name : MappingSource → String
  | managed => "Managed"
  | external => "External"

def ofName? (name : String) : Option MappingSource := all.find? (·.name = name)

end MappingSource

/-- Whether an index over one category, and perhaps one label, covers an element. -/
def covers (element : ElementCategory) (constraint : Option SchemaId) (category : ElementCategory)
    (label : Option SchemaId) : Bool :=
  element = category && (constraint.isNone || constraint = label)

namespace CompositeIndex

def appliesTo (i : CompositeIndex) (category : ElementCategory) (label : Option SchemaId) : Bool :=
  covers i.element i.label category label

def fieldPosition? (i : CompositeIndex) (key : SchemaId) : Option Nat := i.fields.findIdx? (· = key)

end CompositeIndex

namespace MixedIndex

def appliesTo (i : MixedIndex) (category : ElementCategory) (label : Option SchemaId) : Bool :=
  covers i.element i.label category label

def field? (i : MixedIndex) (key : SchemaId) : Option MixedField := i.fields.find? (·.key = key)

end MixedIndex

namespace IndexDefinition

def id : IndexDefinition → SchemaId
  | composite i => i.id
  | mixed i => i.id

def name : IndexDefinition → String
  | composite i => i.name
  | mixed i => i.name

def element : IndexDefinition → ElementCategory
  | composite i => i.element
  | mixed i => i.element

def label : IndexDefinition → Option SchemaId
  | composite i => i.label
  | mixed i => i.label

def keys : IndexDefinition → List SchemaId
  | composite i => i.fields
  | mixed i => i.fields.map (·.key)

def appliesTo (d : IndexDefinition) (category : ElementCategory) (label : Option SchemaId) : Bool :=
  covers d.element d.label category label

def mixed? : IndexDefinition → Option MixedIndex
  | composite _ => none
  | mixed i => some i

end IndexDefinition

end GraphStore
