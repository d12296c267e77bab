import GraphStore.Interchange.Value
import GraphStore.Schema.RelationType

/-! The interchange forms of relation types and vertex labels. -/
namespace GraphStore

def Multiplicity.form : Form Multiplicity := .name Multiplicity.name Multiplicity.ofName?

def Cardinality.form : Form Cardinality := .name Cardinality.name Cardinality.ofName?

def SortOrder.form : Form SortOrder := .name SortOrder.name SortOrder.ofName?

def ElementCategory.form : Form ElementCategory := .name ElementCategory.name ElementCategory.ofName?

/-- Seconds. -/
def ttlForm : Form (Option Nat) := (Form.number 32).optional

/-- An edge label is a bare name, a property key names its data type. -/
def RelationCategory.form : Form RelationCategory where
  write
    | .edgeLabel => .string "EdgeLabel"
    | .propertyKey type => Form.tagged "PropertyKey" (DataType.form.write type)
  read?
    | .string "EdgeLabel" => some .edgeLabel
    | .object [("PropertyKey", j)] => (DataType.form.read? j).map .propertyKey
    | _ => none

def RelationType.form : Form RelationType where
  write t := .record [Form.schemaId.put "id" t.id, Form.text.put "name" t.name,
    RelationCategory.form.put "category" t.category,
    Multiplicity.form.put "multiplicity" t.multiplicity,
    Form.schemaId.list.put "sort_key" t.sortKey, Form.schemaId.list.put "signature" t.signature,
    SortOrder.form.put "sort_order" t.sortOrder, Form.bool.put "invisible" t.invisible,
    ttlForm.put "ttl" t.ttl]
  read? j := do
    return ⟨← Form.schemaId.field? "id" j, ← Form.text.field? "name" j,
      ← RelationCategory.form.field? "category" j, ← Multiplicity.form.field? "multiplicity" j,
      ← Form.schemaId.list.field? "sort_key" j, ← Form.schemaId.list.field? "signature" j,
      ← SortOrder.form.field? "sort_order" j, ← Form.bool.field? "invisible" j,
      ← ttlForm.field? "ttl" j⟩

def VertexLabel.form : Form VertexLabel where
  write l := .record [Form.schemaId.put "id" l.id, Form.text.put "name" l.name,
    ttlForm.put "ttl" l.ttl]
  read? j := do
    return ⟨← Form.schemaId.field? "id" j, ← Form.text.field? "name" j, ← ttlForm.field? "ttl" j⟩

end GraphStore
