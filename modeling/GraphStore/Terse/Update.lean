import GraphStore.Index.Update
import GraphStore.Interchange.Document
import GraphStore.Interchange.Schema
import GraphStore.Terse.Graph

/-! Index updates as scripts write them down, and as they are shown. -/
namespace GraphStore.Terse

open Form

mutual
/-- A JSON value with every float replaced by its bits. -/
def exactFloats : Json → Json
  | .float x => tagged "f64" (float.write x)
  | .array items => .array (exactItems items)
  | .object fields => .object (exactFields fields)
  | j => j

def exactItems : List Json → List Json
  | [] => []
  | j :: rest => exactFloats j :: exactItems rest

def exactFields : List (String × Json) → List (String × Json)
  | [] => []
  | f :: rest => (f.1, exactFloats f.2) :: exactFields rest
end

/-- A field value is written down with the value it comes from. -/
def fieldValue : Form FieldValue where
  write f := exactFloats f.write
  read? j := do
    let base := FieldValue.ofJson (← value.field? "value" j).searchForm
    let f : FieldValue := { base with
      startDate := ← date.given? "start" j
      endDate := ← date.given? "end" j
      geo := ← place.given? "geo" j
      role := ← text.given? "role" j }
    return f.mergeTags (← text.list.fieldOr? "dsr" [] j)

def updateKind : Form UpdateKind := .name UpdateKind.name UpdateKind.ofName?

def mixedUpdate : Form MixedUpdate where
  write u := .record [schemaId.put "index" u.index, text.put "store" u.store,
    element.put "element" u.element, text.put "field" u.field,
    Cardinality.form.put "cardinality" u.cardinality, updateKind.put "kind" u.kind,
    fieldValue.put "value" u.value, ttlForm.put "ttl" u.ttl]
  read? j := do
    return ⟨← schemaId.field? "index" j, ← text.field? "store" j, ← element.field? "element" j,
      ← text.field? "field" j, ← Cardinality.form.field? "cardinality" j,
      ← updateKind.field? "kind" j, ← fieldValue.field? "value" j, ← (number 32).given? "ttl" j⟩

def compositeUpdate : Form CompositeUpdate where
  write u := .record [schemaId.put "index" u.index, updateKind.put "kind" u.kind,
    bytes.put "key" u.key, bytes.put "entry" u.entry.bytes, (number 64).put "offset" u.entry.offset,
    element.put "element" u.element, ttlForm.put "ttl" u.ttl]
  read? j := do
    return ⟨← schemaId.field? "index" j, ← updateKind.field? "kind" j, ← bytes.field? "key" j,
      ⟨← bytes.field? "entry" j, ← (number 64).field? "offset" j⟩, ← element.field? "element" j,
      ← (number 32).given? "ttl" j⟩

def update : Form IndexUpdate where
  write
    | .composite u => tagged "composite" (compositeUpdate.write u)
    | .mixed u => tagged "mixed" (mixedUpdate.write u)
  read? j := do
    match ← mixedUpdate.given? "mixed" j with
    | some u => return .mixed u
    | none => return .composite (← compositeUpdate.field? "composite" j)

end GraphStore.Terse
