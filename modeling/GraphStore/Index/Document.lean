import GraphStore.Index.Update

/-!
Documents of a search backend, put together from updates. A SINGLE field holds one value, a SET field
each value once, and a LIST field a value for each addition that was not taken back. A field without
values is not there.
-/
namespace GraphStore

inductive FieldSlot where
  | single (v : FieldValue)
  | many (vs : List FieldValue)
  deriving Repr

/-- The values of a field that is to hold many. One value is not carried over. -/
def FieldSlot.values : FieldSlot → List FieldValue
  | single _ => []
  | many vs => vs

structure Document where
  index : SchemaId
  store : String
  id : String
  /-- Fields by name, each name once. -/
  fields : List (String × FieldSlot)
  deriving Repr

namespace Document

def new (index : SchemaId) (store id : String) : Document := ⟨index, store, id, []⟩

def field? (d : Document) (name : String) : Option FieldSlot :=
  (d.fields.find? (·.1 = name)).map (·.2)

/-- Fields with the slot of a name put in the stead of the old one, or last. -/
def putField (name : String) (slot : FieldSlot) : List (String × FieldSlot) → List (String × FieldSlot)
  | [] => [(name, slot)]
  | f :: rest => if f.1 = name then (name, slot) :: rest else f :: putField name slot rest

def put (d : Document) (name : String) (slot : FieldSlot) : Document :=
  { d with fields := putField name slot d.fields }

def clear (d : Document) (name : String) : Document :=
  { d with fields := d.fields.filter (·.1 ≠ name) }

/-- Merge tags into the first equal value, if there is one. -/
def mergeFirst (v : FieldValue) : List FieldValue → Option (List FieldValue)
  | [] => none
  | held :: rest =>
    if held.value.equals v.value then some (held.mergeTags v.dsr :: rest)
    else (mergeFirst v rest).map (held :: ·)

/-- A SET keeps a value once. -/
def addTo (c : Cardinality) (v : FieldValue) (vs : List FieldValue) : List FieldValue :=
  match c with
  | .set => (mergeFirst v vs).getD (vs ++ [v])
  | _ => vs ++ [v]

/-- Take away the first equal value. -/
def removeFrom (v : FieldValue) (vs : List FieldValue) : List FieldValue :=
  vs.eraseP fun held => held.value.equals v.value

def apply (d : Document) (u : MixedUpdate) : Document :=
  match u.kind, u.cardinality with
  | .add, .single => d.put u.field (.single u.value)
  | .add, c =>
    let held := ((d.field? u.field).map (·.values)).getD []
    d.put u.field (.many (addTo c u.value held))
  | .delete, .single => d.clear u.field
  | .delete, _ =>
    match d.field? u.field with
    | some (.many vs) =>
      let left := removeFrom u.value vs
      if left.isEmpty then d.clear u.field else d.put u.field (.many left)
    | _ => d

/-- Apply an update to the document it is for, which is started if it is new. -/
def applyAmong (u : MixedUpdate) : List Document → List Document
  | [] => [(new u.index u.store u.element.documentId).apply u]
  | d :: rest =>
    if d.index = u.index ∧ d.id = u.element.documentId then d.apply u :: rest
    else d :: applyAmong u rest

/-- The documents that some updates leave, in the order in which they were first met. -/
def assemble (updates : List IndexUpdate) : List Document :=
  (updates.filterMap (·.mixed?)).foldl (fun docs u => applyAmong u docs) []

def isEmpty (d : Document) : Bool := d.fields.isEmpty

end Document

end GraphStore
