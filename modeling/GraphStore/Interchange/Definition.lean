import GraphStore.Index.Definition
import GraphStore.Index.FieldValue
import GraphStore.Interchange.Schema

/-! The interchange forms of index definitions and of the keys of auxiliary values. -/
namespace GraphStore

def IndexStatus.form : Form IndexStatus := .name IndexStatus.name IndexStatus.ofName?

def Mapping.form : Form Mapping := .name Mapping.name Mapping.ofName?

def MappingSource.form : Form MappingSource := .name MappingSource.name MappingSource.ofName?

def CompositeIndex.form : Form CompositeIndex where
  write i := .record [Form.schemaId.put "id" i.id, Form.text.put "name" i.name,
    ElementCategory.form.put "element" i.element, Form.schemaId.list.put "fields" i.fields,
    Cardinality.form.put "cardinality" i.cardinality, IndexStatus.form.put "status" i.status,
    Form.schemaId.optional.put "label" i.label]
  read? j := do
    return ⟨← Form.schemaId.field? "id" j, ← Form.text.field? "name" j,
      ← ElementCategory.form.field? "element" j, ← Form.schemaId.list.field? "fields" j,
      ← Cardinality.form.field? "cardinality" j, ← IndexStatus.form.field? "status" j,
      ← Form.schemaId.optional.field? "label" j⟩

def MixedField.form : Form MixedField where
  write f := .record [Form.schemaId.put "key" f.key, IndexStatus.form.put "status" f.status,
    Mapping.form.put "mapping" f.mapping, Form.text.optional.put "mapped_name" f.mappedName]
  read? j := do
    return ⟨← Form.schemaId.field? "key" j, ← IndexStatus.form.field? "status" j,
      ← Mapping.form.field? "mapping" j, ← Form.text.optional.field? "mapped_name" j⟩

def MixedIndex.form : Form MixedIndex where
  write i := .record [Form.schemaId.put "id" i.id, Form.text.put "name" i.name,
    Form.text.put "store" i.store, ElementCategory.form.put "element" i.element,
    MixedField.form.list.put "fields" i.fields, Form.schemaId.optional.put "label" i.label,
    MappingSource.form.put "source" i.source]
  read? j := do
    return ⟨← Form.schemaId.field? "id" j, ← Form.text.field? "name" j,
      ← Form.text.field? "store" j, ← ElementCategory.form.field? "element" j,
      ← MixedField.form.list.field? "fields" j, ← Form.schemaId.optional.field? "label" j,
      ← MappingSource.form.field? "source" j⟩

def IndexDefinition.form : Form IndexDefinition where
  write
    | .composite i => Form.tagged "Composite" (CompositeIndex.form.write i)
    | .mixed i => Form.tagged "Mixed" (MixedIndex.form.write i)
  read?
    | .object [("Composite", j)] => (CompositeIndex.form.read? j).map .composite
    | .object [("Mixed", j)] => (MixedIndex.form.read? j).map .mixed
    | _ => none

def AuxiliaryKeys.form : Form AuxiliaryKeys where
  write a := .record [Form.schemaId.optional.put "start_date" a.startDate,
    Form.schemaId.optional.put "end_date" a.endDate, Form.schemaId.optional.put "geo" a.geo,
    Form.schemaId.optional.put "role" a.role, Form.schemaId.optional.put "dsr" a.dsr]
  read? j := do
    return ⟨← Form.schemaId.optional.field? "start_date" j,
      ← Form.schemaId.optional.field? "end_date" j, ← Form.schemaId.optional.field? "geo" j,
      ← Form.schemaId.optional.field? "role" j, ← Form.schemaId.optional.field? "dsr" j⟩

end GraphStore
