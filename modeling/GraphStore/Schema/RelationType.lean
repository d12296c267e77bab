import GraphStore.Graph.Direction
import GraphStore.Identifier
import GraphStore.Value

/-!
What a schema says about a relation type. The sort key is written into the key of a record and decides
where the record sorts; the signature stands at the front of a record's content.
-/
namespace GraphStore

/-- Keys of the store's own that never enter the bytes of a record. -/
inductive ImplicitKey where
  | ttl | visibility | timestamp
  deriving DecidableEq, Repr

namespace ImplicitKey

def all : List ImplicitKey := [ttl, visibility, timestamp]

def name : ImplicitKey → String
  | ttl => "Ttl"
  | visibility => "Visibility"
  | timestamp => "Timestamp"

def id : ImplicitKey → SchemaId
  | ttl => .ofNat 1
  | visibility => .ofNat 2
  | timestamp => .ofNat 3

def ofId? (id : SchemaId) : Option ImplicitKey := all.find? (·.id = id)

def dataType : ImplicitKey → DataType
  | ttl => .int
  | visibility => .string
  | timestamp => .date

def isReserved (id : SchemaId) : Bool := (ofId? id).isSome

theorem ofId?_id (k : ImplicitKey) : ofId? k.id = some k := by cases k <;> rfl

end ImplicitKey

inductive RelationCategory where
  | edgeLabel
  | propertyKey (type : DataType)
  deriving DecidableEq, Repr

structure RelationType where
  id : SchemaId
  name : String
  category : RelationCategory
  multiplicity : Multiplicity
  sortKey : List SchemaId
  signature : List SchemaId
  sortOrder : SortOrder
  /-- Types of the system's own are kept apart from those of its users. -/
  invisible : Bool
  /-- Seconds until a record of the type expires. -/
  ttl : Option Nat
  deriving DecidableEq, Repr

structure VertexLabel where
  id : SchemaId
  name : String
  ttl : Option Nat
  deriving DecidableEq, Repr

namespace RelationType

def edgeLabel (id : SchemaId) (name : String) : RelationType :=
  ⟨id, name, .edgeLabel, .multi, [], [], .ascending, false, none⟩

def propertyKey (id : SchemaId) (name : String) (type : DataType) : RelationType :=
  ⟨id, name, .propertyKey type, .manyToOne, [], [], .ascending, false, none⟩

def dataType? (t : RelationType) : Option DataType :=
  match t.category with
  | .propertyKey type => some type
  | .edgeLabel => none

def isPropertyKey (t : RelationType) : Bool := t.dataType?.isSome

def cardinality (t : RelationType) : Cardinality := t.multiplicity.cardinality

/-- The keys written into records of the type wherever they stand. -/
def inlinedKeys (t : RelationType) : List SchemaId := t.sortKey ++ t.signature

end RelationType

end GraphStore
