import GraphStore.Index.Element
import GraphStore.Terse.Value

/-! Terse forms of relations, vertices, and what indexes know of them. -/
namespace GraphStore.Terse

open Form

namespace Relation

def writeKind : RelationKind → List (String × Json)
  | .edge outVertex inVertex => [text.put "out" outVertex, text.put "in" inVertex]
  | .property vertex v => [text.put "vertex" vertex, value.put "value" v]

/-- A relation with a vertex is a property. -/
def readKind? (j : Json) : Option RelationKind := do
  match ← text.given? "vertex" j with
  | some vertex => return .property vertex (← value.field? "value" j)
  | none => return .edge (← text.field? "out" j) (← text.field? "in" j)

end Relation

def relation : Form Relation where
  write r := .record ([text.put "id" r.id, schemaId.put "type" r.type,
    properties.put "props" r.properties] ++ Relation.writeKind r.kind)
  read? j := do
    return ⟨← text.field? "id" j, ← schemaId.field? "type" j, ← Relation.readKind? j,
      ← properties.fieldOr? "props" .empty j⟩

def identity : Form RelationIdentity where
  write i := .record [text.put "id" i.relation, text.put "out" i.outVertex,
    schemaId.put "type" i.type, text.optional.put "in" i.inVertex]
  read? j := do
    return ⟨← text.field? "id" j, ← text.field? "out" j, ← schemaId.field? "type" j,
      ← text.given? "in" j⟩

def vertexProperty : Form VertexProperty where
  write p := .record [text.put "id" p.id, schemaId.put "key" p.key, value.put "value" p.value,
    properties.put "meta" p.metadata]
  read? j := do
    return ⟨← text.field? "id" j, ← schemaId.field? "key" j, ← value.field? "value" j,
      ← properties.fieldOr? "meta" .empty j⟩

def vertex : Form Vertex where
  write v := .record [text.put "id" v.id, schemaId.optional.put "label" v.label,
    vertexProperty.list.put "props" v.properties]
  read? j := do
    return ⟨← text.field? "id" j, ← schemaId.given? "label" j,
      ← vertexProperty.list.fieldOr? "props" [] j⟩

def element : Form Element where
  write
    | .vertex id => tagged "vertex" (text.write id)
    | .relation r => tagged "relation" (identity.write r)
  read? j := do
    match ← text.given? "vertex" j with
    | some id => return .vertex id
    | none => return .relation (← identity.field? "relation" j)

def matched : Form MatchedValue where
  write m := .array [text.write m.relation, schemaId.write m.key, value.write m.value]
  read?
    | .array [relation, key, v] => do
      return ⟨← text.read? relation, ← schemaId.read? key, ← value.read? v⟩
    | _ => none

end GraphStore.Terse
