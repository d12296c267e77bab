import GraphStore.Codec.Attribute
import GraphStore.Digest.Sha256
import GraphStore.Index.Definition
import GraphStore.Index.Element
import GraphStore.Index.Settings
import GraphStore.Schema.Types

/-!
Keys of a composite index: the index id, then the values of the fields in compact form. A few bytes of
digest may stand before it, so that keys spread evenly over the store.
-/
namespace GraphStore

/-- How keys are made: the digest, and how much of it stands before a key. -/
structure KeyCodec where
  hash : Option HashLength
  digest : Bytes → Bytes

namespace KeyCodec

def sha256 (hash : Option HashLength) : KeyCodec := ⟨hash, Sha256.digest⟩

def mark (c : KeyCodec) (length : HashLength) (raw : Bytes) : Bytes :=
  (c.digest raw).take length.bytes

def withMark (c : KeyCodec) (raw : Bytes) : Bytes :=
  match c.hash with
  | none => raw
  | some length => c.mark length raw ++ raw

/-- The key without its digest, which must be the digest of the rest. -/
def strip (c : KeyCodec) (key : Bytes) : Except Fault Bytes :=
  match c.hash with
  | none => .ok key
  | some length =>
    if key.length < length.bytes then .error (.encoding .shortDigest)
    else
      let raw := key.drop length.bytes
      if c.mark length raw = key.take length.bytes then .ok raw
      else .error (.encoding .digestMismatch)

def writeValues (types : Types) : List (SchemaId × Value) → Except Fault Bytes
  | [] => .ok []
  | (key, v) :: rest => do
    let declared ← types.keyType key
    let value ← Attribute.write declared .compact v
    return value ++ (← writeValues types rest)

/-- The key of some values, given in the order of the index's fields. -/
def build (c : KeyCodec) (types : Types) (i : CompositeIndex) (values : List Value) :
    Except Fault Bytes := do
  if values.length ≠ i.fields.length then
    .error (.invariant (.fieldCount i.name i.fields.length values.length))
  else
    let fields ← writeValues types (i.fields.zip values)
    return c.withMark (Bytes.orderedVarint i.id.value ++ fields)

def ofMatch (c : KeyCodec) (types : Types) (i : CompositeIndex) (m : Match) : Except Fault Bytes :=
  c.build types i (m.map (·.value))

def readId : Reading SchemaId := do
  return ⟨← Reading.orderedVarint⟩

/-- The index that a key belongs to. -/
def indexId (c : KeyCodec) (key : Bytes) : Except Fault SchemaId := do
  readId.result (← c.strip key)

def readValues (types : Types) : List SchemaId → Reading (List Value)
  | [] => return []
  | key :: rest => do
    let declared ← Attempt.lift (types.keyType key)
    let v ← Attribute.read declared .compact
    return v :: (← readValues types rest)

def read (types : Types) (i : CompositeIndex) : Reading (List Value) := do
  let id ← readId
  if id ≠ i.id then Attempt.fail (.invariant (.foreignKey id i.name))
  else
    let values ← readValues types i.fields
    if (← Reading.remaining).isEmpty then return values
    else Attempt.fail (.encoding .trailingKeyBytes)

/-- The values of a key of an index. -/
def decode (c : KeyCodec) (types : Types) (i : CompositeIndex) (key : Bytes) :
    Except Fault (List Value) := do
  (read types i).result (← c.strip key)

end KeyCodec

end GraphStore
