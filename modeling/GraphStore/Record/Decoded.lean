import GraphStore.Record

/-!
What a record says. The header part (type, direction, id and far end) can be read without the
properties. A record is not trusted: each part must end where the key ends, or the record and the schema
contradict each other.
-/
namespace GraphStore

structure Decoded where
  type : SchemaId
  direction : Direction
  relation : RelationId
  far : FarEnd
  /-- Missing if only the header part was read. -/
  properties : Option Properties
  deriving DecidableEq, Repr

namespace Decoded

def get? (d : Decoded) (key : SchemaId) : Option Value := d.properties.bind (·.get? key)

/-- The relation as it was before it was stored with its owner. -/
def toRelation (d : Decoded) (owner : VertexId) : Relation :=
  let kind :=
    match d.far, d.direction with
    | .vertex other, .into => .edge other owner
    | .vertex other, _ => .edge owner other
    | .value v, _ => .property owner v
  ⟨d.relation, d.type, kind, d.properties.getD .empty⟩

end Decoded

namespace Reading

/-- Read the turned bits of the next bytes, no further than `limit`. -/
def flipped {α : Type} (limit : Nat) (r : Reading α) : Reading α := fun bytes =>
  let view := Bytes.flip (bytes.take limit)
  match r view with
  | (.ok a, rest) => (.ok a, bytes.drop (view.length - rest.length))
  | (.error fault, _) => (.error fault, bytes)

/-- The number of bytes read of an input of a known size. -/
def position (size : Nat) : Reading Nat := do
  return size - (← remaining).length

end Reading

namespace Record

/-- The key must end here. -/
def expectKeyEnd (r : Record) (t : RelationType) : Reading Unit := do
  let position ← Reading.position r.bytes.length
  if position = r.key.length then return ()
  else Attempt.fail (.invariant (.keyEnd t.name position r.key.length))

/-- There must be content. -/
def expectContent (t : RelationType) : Reading Unit := do
  if (← Reading.remaining).isEmpty then Attempt.fail (.invariant (.missingValue t.name))
  else return ()

def readSortKey (types : Types) (t : RelationType) (r : Record) :
    Reading (List (SchemaId × Value)) := do
  match t.sortOrder with
  | .ascending => Inline.readAll types t.sortKey
  | .descending =>
    let position ← Reading.position r.bytes.length
    Reading.flipped (r.key.length - position) (Inline.readAll types t.sortKey)

/-- Far end, relation id and sort-key properties. -/
def readEnds (types : Types) (t : RelationType) (d : Direction) (r : Record) :
    Reading (FarEnd × RelationId × List (SchemaId × Value)) :=
  match Layout.of t d with
  | .unique => do
    r.expectKeyEnd t
    expectContent t
    let far ← FarEnd.read t
    let id ← Reading.escapedText
    return (far, id, [])
  | .constrained => do
    let far ← FarEnd.read t
    r.expectKeyEnd t
    expectContent t
    let id ← Reading.escapedText
    return (far, id, [])
  | .unconstrained => do
    let sorted ← readSortKey types t r
    if t.isPropertyKey then
      let id ← Reading.escapedText
      r.expectKeyEnd t
      expectContent t
      let far ← FarEnd.read t
      return (far, id, sorted)
    else
      let far ← FarEnd.read t
      let id ← Reading.escapedText
      r.expectKeyEnd t
      return (far, id, sorted)

/-- Keys and values up to the end. Each takes a byte or more, so the fuel need not exceed their number. -/
def readLoose (types : Types) : Nat → Reading (List (SchemaId × Value))
  | 0 => return []
  | fuel + 1 => do
    if (← Reading.remaining).isEmpty then return []
    else
      let key : SchemaId := ⟨← Reading.orderedVarint⟩
      let declared ← Attempt.lift (types.keyType key)
      let v ← Attribute.read declared .compact
      let rest ← readLoose types fuel
      return (key, v) :: rest

def read (types : Types) (r : Record) (headerOnly : Bool) : Reading Decoded := do
  let header ← Header.read
  let t ← Attempt.lift (types.existing header.type)
  if t.isPropertyKey ≠ (header.slot = .property : Bool) then
    Attempt.fail (.invariant (.recordCategory t.name))
  else
    let d := header.slot.direction
    let (far, id, sorted) ← readEnds types t d r
    if headerOnly then return ⟨t.id, d, id, far, none⟩
    else
      let signature ← Inline.readAll types t.signature
      let loose ← readLoose types (r.bytes.length + 1)
      let all := sorted ++ signature ++ loose ++ r.metadata.entries
      return ⟨t.id, d, id, far, some (.ofList all)⟩

def decode (types : Types) (r : Record) (headerOnly : Bool) : Except Fault Decoded :=
  (r.read types headerOnly).result r.bytes

end Record

end GraphStore
