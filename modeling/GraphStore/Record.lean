import GraphStore.Graph.Relation
import GraphStore.Record.Layout

/-!
A relation is stored once for each vertex it touches, as a key that decides where the record sorts and a
content. The key starts with the header; after it:

| layout                  | key                          | content            |
|-------------------------|------------------------------|--------------------|
| unique                  |                              | far end, id        |
| constrained             | far end                      | id                 |
| unconstrained, edge     | sort key, far end, id        |                    |
| unconstrained, property | sort key, id                 | far end            |

The content goes on with the signature, and ends with the properties that are inlined nowhere, by
ascending key. A descending type has the bits of its sort key turned. Implicit keys stay out of the
bytes.
-/
namespace GraphStore

structure Record where
  key : Bytes
  content : Bytes
  /-- Properties under implicit keys. -/
  metadata : Properties
  deriving DecidableEq, Repr

namespace Record

def bytes (r : Record) : Bytes := r.key ++ r.content

/-- A record whose content starts at an offset. -/
def ofBytes (bytes : Bytes) (offset : Nat) : Except Fault Record :=
  if bytes.length < offset then .error (.validation (.offsetPastEnd offset bytes.length))
  else .ok ⟨bytes.take offset, bytes.drop offset, .empty⟩

/-- The far end of a relation whose kind fits its type. -/
def farEnd (t : RelationType) (r : Relation) (d : Direction) : Except Fault FarEnd :=
  match r.value, r.otherVertex d, t.dataType? with
  | none, some other, none => .ok (.vertex other)
  | some v, _, some _ => .ok (.value v)
  | _, _, _ => .error (.invariant (.relationCategory r.id t.name))

/-- Every property must have a known key that takes its value. -/
def checkProperties (types : Types) : List (SchemaId × Value) → Except Fault Unit
  | [] => .ok ()
  | (key, v) :: rest =>
    match types.keyType key with
    | .error fault => .error fault
    | .ok declared =>
      if declared.accepts v then checkProperties types rest else .error (.mismatch declared v)

/-- The properties that enter the bytes. -/
def stored (r : Relation) : Properties := r.properties.filter fun key _ => !ImplicitKey.isReserved key

def sortKey (types : Types) (t : RelationType) (r : Relation) : Except Fault Bytes := do
  let fields ← Inline.writeAll types (stored r).get? t.sortKey
  return match t.sortOrder with
    | .ascending => fields
    | .descending => Bytes.flip fields

/-- Properties with their keys, for those that are inlined nowhere. -/
def writeLoose (types : Types) (t : RelationType) : List (SchemaId × Value) → Except Fault Bytes
  | [] => .ok []
  | (key, v) :: rest =>
    if key ∈ t.inlinedKeys then writeLoose types t rest
    else do
      let declared ← types.keyType key
      let value ← Attribute.write declared .compact v
      return Bytes.orderedVarint key.value ++ value ++ (← writeLoose types t rest)

/-- The key and the front of the content. -/
def keyAndEnds (types : Types) (t : RelationType) (r : Relation) (d : Direction) (far : FarEnd)
    (header : Bytes) : Except Fault (Bytes × Bytes) :=
  let id := Bytes.escapedText r.id
  match Layout.of t d with
  | .unique => do
    let far ← far.write t
    return (header, far ++ id)
  | .constrained => do
    let far ← far.write t
    return (header ++ far, id)
  | .unconstrained => do
    let sort ← sortKey types t r
    let far ← far.write t
    return if r.isEdge then (header ++ sort ++ far ++ id, []) else (header ++ sort ++ id, far)

/-- The record of a relation at one of the vertices it touches: position 0 is the out vertex. -/
def encode (types : Types) (r : Relation) (position : Nat) : Except Fault Record := do
  let t ← types.existing r.type
  if r.arity ≤ position then .error (.validation (.positionPastArity position r.arity))
  else
    let d := Direction.ofPosition position
    let far ← farEnd t r d
    checkProperties types r.properties.entries
    let header ← t.header d
    let (key, ends) ← keyAndEnds types t r d far header
    let signature ← Inline.writeAll types (stored r).get? t.signature
    let loose ← writeLoose types t (stored r).entries
    return ⟨key, ends ++ signature ++ loose,
      r.properties.filter fun key _ => ImplicitKey.isReserved key⟩

end Record

end GraphStore
