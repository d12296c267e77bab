import GraphStore.Index.Planning
import GraphStore.Interchange.Definition
import GraphStore.Terse.Update

/-! Mutations, backend faults and default fields as scripts write them down. -/
namespace GraphStore.Terse

open Form

def mutation? (j : Json) : Option Mutation := do
  let kind ← updateKind.field? "kind" j
  match ← relation.given? "relation" j with
  | some r => return .relation r kind
  | none =>
    return .vertexProperty (← vertex.field? "vertex" j) (← vertexProperty.field? "property" j) kind

def temporary : Form Bool :=
  .name (fun t => BackendFault.word ⟨t, ""⟩) fun s =>
    if s = "temporary" then some true else if s = "permanent" then some false else none

def backendFault? (j : Json) : Option BackendFault := do
  return ⟨← temporary.field? "kind" j, ← text.field? "message" j⟩

/-- A key, a field name, a data type and a mapping. -/
def defaultField? : Json → Option DefaultField
  | .array [key, name, type, mapping] => do
    return ⟨← schemaId.read? key, ← text.read? name, ← DataType.form.read? type,
      ← Mapping.form.read? mapping⟩
  | _ => none

end GraphStore.Terse
