import GraphStore.Interchange.Definition

/-!
Schema elements and indexes as scripts write them down: what has a default may be left out or null.
-/
namespace GraphStore.Terse

open Form

/-- A type with a data type is a property key. A cardinality counts before a multiplicity. -/
def relationType? (j : Json) : Option RelationType := do
  let id ← schemaId.field? "id" j
  let name ← text.field? "name" j
  let base :=
    match ← DataType.form.given? "key" j with
    | some type => RelationType.propertyKey id name type
    | none => RelationType.edgeLabel id name
  let multiplicity ← Multiplicity.form.fieldOr? "multiplicity" base.multiplicity j
  let cardinality ← Cardinality.form.given? "cardinality" j
  return { base with
    multiplicity := (cardinality.map Multiplicity.ofCardinality).getD multiplicity
    sortKey := ← schemaId.list.fieldOr? "sort_key" [] j
    signature := ← schemaId.list.fieldOr? "signature" [] j
    sortOrder := ← SortOrder.form.fieldOr? "order" .ascending j
    invisible := ← bool.fieldOr? "invisible" false j
    ttl := ← (number 32).given? "ttl" j }

def label? (j : Json) : Option VertexLabel := do
  return ⟨← schemaId.field? "id" j, ← text.field? "name" j, ← (number 32).given? "ttl" j⟩

/-- A unique index is one of single cardinality. -/
def compositeIndex? (j : Json) : Option CompositeIndex := do
  let cardinality ← Cardinality.form.fieldOr? "cardinality" .list j
  let unique ← bool.fieldOr? "unique" false j
  return ⟨← schemaId.field? "id" j, ← text.field? "name" j, ← ElementCategory.form.field? "element" j,
    ← schemaId.list.fieldOr? "fields" [] j, if unique then .single else cardinality,
    ← IndexStatus.form.fieldOr? "status" .enabled j, ← schemaId.given? "label" j⟩

def mixedField? (j : Json) : Option MixedField := do
  return ⟨← schemaId.field? "key" j, ← IndexStatus.form.fieldOr? "status" .enabled j,
    ← Mapping.form.fieldOr? "mapping" .default j, ← text.given? "name" j⟩

def mixedIndex? (j : Json) : Option MixedIndex := do
  let fields ←
    match j.field? "fields" with
    | some (.array items) => items.mapM mixedField?
    | _ => some []
  return ⟨← schemaId.field? "id" j, ← text.field? "name" j, ← text.field? "store" j,
    ← ElementCategory.form.field? "element" j, fields, ← schemaId.given? "label" j,
    ← MappingSource.form.fieldOr? "source" .managed j⟩

def definition? (j : Json) : Option IndexDefinition :=
  match present? "composite" j with
  | some j => (compositeIndex? j).map .composite
  | none => ((j.field? "mixed").bind mixedIndex?).map .mixed

def auxiliaryKeys? (j : Json) : Option AuxiliaryKeys := do
  return ⟨← schemaId.given? "start" j, ← schemaId.given? "end" j, ← schemaId.given? "geo" j,
    ← schemaId.given? "role" j, ← schemaId.given? "dsr" j⟩

end GraphStore.Terse
