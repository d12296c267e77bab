import GraphStore.Fault
import GraphStore.KeyMap
import GraphStore.Schema.RelationType

/-!
Looking up relation types. Codecs and planners hold no schema; they ask a `Types`, which a `Schema`
provides, but which anything else may provide as well.
-/
namespace GraphStore

structure Types where
  type? : SchemaId → Option RelationType
  named? : String → Option RelationType
  label? : SchemaId → Option VertexLabel

namespace Types

def empty : Types := ⟨fun _ => none, fun _ => none, fun _ => none⟩

/-- A type that must be known. -/
def existing (types : Types) (id : SchemaId) : Except Fault RelationType :=
  match types.type? id with
  | some t => .ok t
  | none => .error (.unknownType id)

/-- The data type that a key declares. Implicit keys have theirs without being in any schema. -/
def keyType (types : Types) (key : SchemaId) : Except Fault DataType :=
  match ImplicitKey.ofId? key with
  | some implicit => .ok implicit.dataType
  | none =>
    match types.existing key with
    | .error fault => .error fault
    | .ok t =>
      match t.dataType? with
      | some type => .ok type
      | none => .error (.validation (.notPropertyKey key))

/-- Types laid over a lookup. By id they hide what lies below; by name they come after it, the least id
first. -/
def overlay (extra : KeyMap RelationType) (types : Types) : Types where
  type? id := (extra.get? id).orElse fun _ => types.type? id
  named? name := (types.named? name).orElse fun _ => extra.values.find? (·.name = name)
  label? := types.label?

end Types

end GraphStore
