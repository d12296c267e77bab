import GraphStore.Schema.Types

/-!
A schema grows one type or label at a time, and refuses what would make records ambiguous: ids and names
stay distinct, constrained types have no sort key, and an inlined key has a type of its own, so that its
bytes tell where they end and how they sort.
-/
namespace GraphStore

structure Schema where
  types : KeyMap RelationType
  labels : KeyMap VertexLabel
  deriving DecidableEq, Repr

namespace Schema

def empty : Schema := ⟨.empty, .empty⟩

def hasId (s : Schema) (id : SchemaId) : Bool := s.types.contains id || s.labels.contains id

/-- Of several types with one name the least id would be meant; there are never several. -/
def named? (s : Schema) (name : String) : Option RelationType :=
  s.types.values.find? (·.name = name)

def lookup (s : Schema) : Types := ⟨s.types.get?, s.named?, s.labels.get?⟩

/-- Inlined keys must be known and must not be generic. -/
def checkInlined (s : Schema) (type : String) : List SchemaId → Except Fault Unit
  | [] => .ok ()
  | key :: rest =>
    match s.lookup.keyType key with
    | .error fault => .error fault
    | .ok .generic => .error (.validation (.genericInlined key type))
    | .ok _ => checkInlined s type rest

def addType (s : Schema) (t : RelationType) : Except Fault Schema :=
  if ImplicitKey.isReserved t.id then .error (.validation (.reservedType t.id))
  else if SchemaId.greatest < t.id.toNat then .error (.validation (.typeOutOfRange t.id))
  else if s.hasId t.id then .error (.validation (.typeTaken t.id))
  else if (s.named? t.name).isSome then .error (.validation (.typeNameTaken t.name))
  else if t.multiplicity.isConstrained && !t.sortKey.isEmpty then
    .error (.validation (.constrainedSortKey t.name))
  else
    match s.checkInlined t.name t.inlinedKeys with
    | .error fault => .error fault
    | .ok () => .ok { s with types := s.types.insert t.id t }

def addLabel (s : Schema) (l : VertexLabel) : Except Fault Schema :=
  if s.hasId l.id then .error (.validation (.labelTaken l.id))
  else .ok { s with labels := s.labels.insert l.id l }

end Schema

end GraphStore
