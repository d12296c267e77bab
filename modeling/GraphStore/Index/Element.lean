import GraphStore.Graph.Vertex

/-!
The elements that indexes point at, and the combinations of values by which an element matches a
composite index. A vertex with several values under a field contributes one match for each choice.
-/
namespace GraphStore

inductive Element where
  | vertex (id : VertexId)
  | relation (identity : RelationIdentity)
  deriving DecidableEq, Repr

namespace Element

/-- The id that stands for the element on a search backend. -/
def documentId : Element → String
  | vertex id => id
  | relation r => r.relation

/-- A relation with an in vertex is an edge. -/
def category : Element → ElementCategory
  | vertex _ => .vertex
  | relation r => if r.inVertex.isSome then .edge else .property

end Element

/-- A value that matched a field, with the relation that holds it. -/
structure MatchedValue where
  relation : RelationId
  key : SchemaId
  value : Value
  deriving DecidableEq, Repr

/-- One value for each field of an index, in the order of the fields. -/
abbrev Match := List MatchedValue

namespace Match

/-- Every way to take one candidate for each key; the last key varies fastest. -/
def choices (candidates : SchemaId → List MatchedValue) : List SchemaId → List Match
  | [] => [[]]
  | key :: rest =>
    (candidates key).flatMap fun m => (choices candidates rest).map (m :: ·)

/-- The values of a key on a vertex. A substitute stands alone for all values of its key. -/
def candidates (v : Vertex) (substitute : Option MatchedValue) (key : SchemaId) :
    List MatchedValue :=
  match substitute with
  | some s =>
    if s.key = key then [s]
    else (v.propertiesOf key).map fun p => ⟨p.id, key, p.value⟩
  | none => (v.propertiesOf key).map fun p => ⟨p.id, key, p.value⟩

def ofVertex (v : Vertex) (fields : List SchemaId) (substitute : Option MatchedValue) : List Match :=
  choices (candidates v substitute) fields

/-- The match of a relation, if it carries every field. -/
def ofRelation? (r : Relation) : List SchemaId → Option Match
  | [] => some []
  | key :: rest =>
    match r.get? key, ofRelation? r rest with
    | some v, some m => some (⟨r.id, key, v⟩ :: m)
    | _, _ => none

end Match

end GraphStore
