import GraphStore.Codec.Attribute
import GraphStore.Record.Header
import GraphStore.Schema.Types

/-!
Where the parts of a record go. What the key must tell apart depends on how many relations of the type a
vertex may have in the record's direction:

* unique: one at most, so the header alone is the key;
* constrained: one for each far end, which follows the header;
* unconstrained: any number, told apart by sort key, far end and relation id.

An inlined field starts with a byte that says whether it is there, and its value is in ordered form.
-/
namespace GraphStore

inductive Layout where
  | unique | constrained | unconstrained
  deriving DecidableEq, Repr

def Layout.of (t : RelationType) (d : Direction) : Layout :=
  if t.isPropertyKey then
    match t.cardinality with
    | .single => .unique
    | .set => .constrained
    | .list => .unconstrained
  else if !t.multiplicity.isConstrained then .unconstrained
  else if t.multiplicity.isUnique d then .unique
  else .constrained

/-- What a record's owner is joined to. -/
inductive FarEnd where
  | vertex (id : VertexId)
  | value (v : Value)
  deriving DecidableEq, Repr

namespace FarEnd

def vertex? : FarEnd → Option VertexId
  | vertex id => some id
  | value _ => none

def value? : FarEnd → Option Value
  | vertex _ => none
  | value v => some v

def write (t : RelationType) : FarEnd → Except Fault Bytes
  | vertex id => .ok (Bytes.escapedText id)
  | value v => Attribute.write (t.dataType?.getD .generic) .compact v

def read (t : RelationType) : Reading FarEnd :=
  match t.dataType? with
  | none => do return .vertex (← Reading.escapedText)
  | some type => do return .value (← Attribute.read type .compact)

end FarEnd

/-- The header slot of a type's records in a direction. -/
def RelationType.slot (t : RelationType) (d : Direction) : Except Fault Slot :=
  if t.isPropertyKey then .ok .property else Slot.ofDirection d

def RelationType.header (t : RelationType) (d : Direction) : Except Fault Bytes :=
  match t.slot d with
  | .error fault => .error fault
  | .ok slot => Header.write ⟨t.id, slot, t.invisible⟩

namespace Inline

def write (declared : DataType) : Option Value → Except Fault Bytes
  | none => .ok [0]
  | some v =>
    match Attribute.write declared .ordered v with
    | .ok bytes => .ok (1 :: bytes)
    | .error fault => .error fault

def read (declared : DataType) : Reading (Option Value) := do
  let b ← Reading.byte
  if b = 0 then return none
  else if b = 1 then return some (← Attribute.read declared .ordered)
  else Attempt.fail (.encoding (.invalidPresence b))

/-- The fields of some keys, one after another. -/
def writeAll (types : Types) (properties : SchemaId → Option Value) :
    List SchemaId → Except Fault Bytes
  | [] => .ok []
  | key :: rest => do
    let declared ← types.keyType key
    let field ← write declared (properties key)
    return field ++ (← writeAll types properties rest)

/-- The fields of some keys that are there. -/
def readAll (types : Types) : List SchemaId → Reading (List (SchemaId × Value))
  | [] => return []
  | key :: rest => do
    let declared ← Attempt.lift (types.keyType key)
    let field ← read declared
    let fields ← readAll types rest
    return match field with
      | some v => (key, v) :: fields
      | none => fields

end Inline

end GraphStore
