import GraphStore.Index.Catalog
import GraphStore.Index.CompositeKey
import GraphStore.Index.FieldSpace
import GraphStore.Index.Update

/-!
Which index updates a change of the graph causes. A change touches the indexes over the keys it brings
in or takes away; for a composite vertex index it also names every combination with the vertex's other
values. A plan that fails keeps the updates it had planned before.
-/
namespace GraphStore

inductive Mutation where
  | relation (r : Relation) (kind : UpdateKind)
  /-- A property that comes to a vertex or leaves it. -/
  | vertexProperty (v : Vertex) (p : VertexProperty) (kind : UpdateKind)
  deriving DecidableEq, Repr

structure Planner where
  catalog : Catalog
  types : Types
  keys : KeyCodec
  auxiliary : AuxiliaryKeys
  /-- Without it, default fields are not indexed. -/
  registrar : Option Registrar

/-- The fields as they are known, and the updates planned so far. -/
structure PlanState where
  space : FieldSpace
  planned : List IndexUpdate

abbrev Planning := Attempt PlanState IndexFault

namespace Planning

def emit (u : IndexUpdate) : Planning Unit :=
  Attempt.modify fun s => { s with planned := s.planned ++ [u] }

def inSpace {α : Type} (step : Attempt FieldSpace IndexFault α) : Planning α :=
  Attempt.within PlanState.space (fun s space => { s with space := space }) step

def ofFault {α : Type} (e : Except Fault α) : Planning α := Attempt.lift (liftFault e)

end Planning

/-- A removal does not expire. -/
def ttlFor (kind : UpdateKind) (ttls : List (Option Nat)) : Option Nat :=
  match kind with
  | .add => minTtl ttls
  | .delete => none

/-- What an update takes from its mutation: the element, what happens to it, and how long the element's
label or type lets it live. -/
structure UpdateContext where
  element : Element
  kind : UpdateKind
  ttl : Option Nat
  deriving DecidableEq, Repr

namespace Planner

open Planning

/-- The times to live of some keys. -/
def keyTtls (types : Types) : List SchemaId → Except Fault (List (Option Nat))
  | [] => .ok []
  | key :: rest => do
    let t ← types.existing key
    return t.ttl :: (← keyTtls types rest)

def compositeUpdate (c : Planner) (u : UpdateContext) (i : CompositeIndex) (m : Match) :
    Except Fault IndexUpdate := do
  let key ← c.keys.ofMatch c.types i m
  let entry ← IndexEntry.build i m u.element
  let ttls ← keyTtls c.types (m.map (·.key))
  return .composite ⟨i.id, u.kind, key, entry, u.element, ttlFor u.kind (u.ttl :: ttls)⟩

def mixedUpdate (c : Planner) (u : UpdateContext) (i : MixedIndex) (field : String)
    (type : RelationType) (v : Value) (metadata : Properties) : IndexUpdate :=
  .mixed ⟨i.id, i.store, u.element, field, type.cardinality, u.kind,
    c.auxiliary.fieldValue v metadata, ttlFor u.kind [u.ttl, type.ttl]⟩

/-- Plan the matches of a composite index. -/
def planComposite (c : Planner) (u : UpdateContext) (i : CompositeIndex) (found : List Match) :
    Planning Unit :=
  Attempt.each (fun m => do emit (← ofFault (c.compositeUpdate u i m))) found

/-- Plan a value of a declared field; a disabled field takes none. -/
def planField (c : Planner) (u : UpdateContext) (i : MixedIndex) (key : SchemaId) (v : Value)
    (metadata : Properties) : Planning Unit :=
  match i.field? key with
  | none => return
  | some f =>
    if f.status.isMaintained then do
      let name ← inSpace (FieldSpace.resolve c.types i key)
      let type ← ofFault (c.types.existing key)
      emit (c.mixedUpdate u i name type v metadata)
    else return

/-- Plan one property of a relation for one of the indexes over its key. -/
def planRelationIndex (c : Planner) (u : UpdateContext) (r : Relation) (key : SchemaId) (v : Value) :
    IndexDefinition → Planning Unit
  | .composite i =>
    if i.status.isMaintained then c.planComposite u i (Match.ofRelation? r i.fields).toList
    else return
  | .mixed i => c.planField u i key v r.properties

/-- The indexes over a key that cover elements of a category and label. -/
def applying (c : Planner) (key : SchemaId) (category : ElementCategory)
    (label : Option SchemaId) : List IndexDefinition :=
  (c.catalog.indexesForKey key).filter (·.appliesTo category label)

/-- Implicit keys are never indexed on their own account. -/
def planRelation (c : Planner) (r : Relation) (kind : UpdateKind) : Planning Unit := do
  let type ← ofFault (c.types.existing r.type)
  let u : UpdateContext := ⟨.relation r.identity, kind, type.ttl⟩
  let properties := r.properties.entries.filter fun e => !ImplicitKey.isReserved e.1
  Attempt.each (fun e => Attempt.each (c.planRelationIndex u r e.1 e.2)
    (c.applying e.1 r.category (some r.type))) properties

/-- Plan a property of a vertex for one of the indexes over its key. -/
def planVertexIndex (c : Planner) (u : UpdateContext) (v : Vertex) (p : VertexProperty) :
    IndexDefinition → Planning Unit
  | .composite i =>
    if i.status.isMaintained then
      c.planComposite u i (Match.ofVertex v i.fields (some ⟨p.id, p.key, p.value⟩))
    else return
  | .mixed i => c.planField u i p.key p.value p.metadata

/-- Plan a default field for one mixed index. An addition makes sure that the index knows the field. -/
def planDefaultIndex (c : Planner) (u : UpdateContext) (registrar : Registrar) (f : DefaultField)
    (type : RelationType) (p : VertexProperty) (i : MixedIndex) : Planning Unit := do
  match u.kind with
  | .add =>
    let _ ← inSpace (FieldSpace.ensureRegistered i f registrar)
  | .delete => pure ()
  emit (c.mixedUpdate u i f.name type p.value p.metadata)

/-- The mixed indexes that a default field goes to: those that apply and do not declare its key. -/
def defaultTargets (c : Planner) (key : SchemaId) (label : Option SchemaId) : List MixedIndex :=
  c.catalog.mixedIndexes.filter fun i => (i.field? key).isNone && i.appliesTo .vertex label

def planDefault (c : Planner) (u : UpdateContext) (v : Vertex) (p : VertexProperty)
    (f : DefaultField) : Planning Unit :=
  match c.registrar with
  | none => return
  | some registrar => do
    let type ← ofFault (c.types.existing f.key)
    Attempt.each (c.planDefaultIndex u registrar f type p) (c.defaultTargets f.key v.label)

def planVertexProperty (c : Planner) (v : Vertex) (p : VertexProperty) (kind : UpdateKind) :
    Planning Unit := do
  let ttl := (v.label.bind c.types.label?).bind (·.ttl)
  let u : UpdateContext := ⟨.vertex v.id, kind, ttl⟩
  Attempt.each (c.planVertexIndex u v p) (c.applying p.key .vertex v.label)
  match (← Attempt.get).space.defaults.field? p.key with
  | none => return
  | some f => c.planDefault u v p f

def planMutation (c : Planner) : Mutation → Planning Unit
  | .relation r kind => c.planRelation r kind
  | .vertexProperty v p kind => c.planVertexProperty v p kind

/-- Add the updates of a mutation to a set. After a fault, the updates planned before it stay in the
set. -/
def planInto (c : Planner) (mutation : Mutation) :
    Attempt (FieldSpace × UpdateSet) IndexFault Unit := fun (space, set) =>
  match c.planMutation mutation ⟨space, []⟩ with
  | (result, after) => (result, after.space, set.insertAll after.planned)

/-- The updates of a mutation. -/
def plan (c : Planner) (mutation : Mutation) : Attempt FieldSpace IndexFault UpdateSet := fun space =>
  match c.planInto mutation (space, .empty) with
  | (.ok (), space, set) => (.ok set, space)
  | (.error fault, space, _) => (.error fault, space)

end Planner

end GraphStore
