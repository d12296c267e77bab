import GraphStore.Graph.Vertex
import GraphStore.Interchange.Value

/-! The interchange forms of relations and vertices. -/
namespace GraphStore

def propertiesForm : Form Properties := Value.form.keyMap

namespace RelationKind

def write : RelationKind → Json
  | .edge outVertex inVertex =>
    Form.tagged "Edge"
      (.record [Form.text.put "out_vertex" outVertex, Form.text.put "in_vertex" inVertex])
  | .property vertex value =>
    Form.tagged "Property"
      (.record [Form.text.put "vertex" vertex, Value.form.put "value" value])

def read? (j : Json) : Option RelationKind := do
  match ← Form.tag? j with
  | ("Edge", j) =>
    return .edge (← Form.text.field? "out_vertex" j) (← Form.text.field? "in_vertex" j)
  | ("Property", j) =>
    return .property (← Form.text.field? "vertex" j) (← Value.form.field? "value" j)
  | _ => none

def form : Form RelationKind := ⟨write, read?⟩

end RelationKind

def Relation.form : Form Relation where
  write r := .record [Form.text.put "id" r.id, Form.schemaId.put "type_id" r.type,
    RelationKind.form.put "kind" r.kind, propertiesForm.put "properties" r.properties]
  read? j := do
    return ⟨← Form.text.field? "id" j, ← Form.schemaId.field? "type_id" j,
      ← RelationKind.form.field? "kind" j, ← propertiesForm.field? "properties" j⟩

def RelationIdentity.form : Form RelationIdentity where
  write i := .record [Form.text.put "relation_id" i.relation, Form.text.put "out_vertex" i.outVertex,
    Form.schemaId.put "type_id" i.type, Form.text.optional.put "in_vertex" i.inVertex]
  read? j := do
    return ⟨← Form.text.field? "relation_id" j, ← Form.text.field? "out_vertex" j,
      ← Form.schemaId.field? "type_id" j, ← Form.text.optional.field? "in_vertex" j⟩

def VertexProperty.form : Form VertexProperty where
  write p := .record [Form.text.put "id" p.id, Form.schemaId.put "key" p.key,
    Value.form.put "value" p.value, propertiesForm.put "meta" p.metadata]
  read? j := do
    return ⟨← Form.text.field? "id" j, ← Form.schemaId.field? "key" j,
      ← Value.form.field? "value" j, ← propertiesForm.field? "meta" j⟩

def Vertex.form : Form Vertex where
  write v := .record [Form.text.put "id" v.id, Form.schemaId.optional.put "label" v.label,
    VertexProperty.form.list.put "properties" v.properties]
  read? j := do
    return ⟨← Form.text.field? "id" j, ← Form.schemaId.optional.field? "label" j,
      ← VertexProperty.form.list.field? "properties" j⟩

end GraphStore
