import GraphStore.Graph.Direction
import GraphStore.KeyMap
import GraphStore.Value

/-! Edges and vertex properties. Either is a relation, and either can carry properties of its own. -/
namespace GraphStore

abbrev Properties := KeyMap Value

/-- What a relation joins: two vertices, or a vertex and a value. -/
inductive RelationKind where
  | edge (outVertex inVertex : VertexId)
  | property (vertex : VertexId) (value : Value)
  deriving DecidableEq, Repr

structure Relation where
  id : RelationId
  type : SchemaId
  kind : RelationKind
  properties : Properties
  deriving DecidableEq, Repr

/-- What addresses a relation from outside the vertices it touches. Properties have no in vertex. -/
structure RelationIdentity where
  relation : RelationId
  outVertex : VertexId
  type : SchemaId
  inVertex : Option VertexId
  deriving DecidableEq, Repr

namespace Relation

def isEdge (r : Relation) : Bool :=
  match r.kind with
  | .edge .. => true
  | .property .. => false

def category (r : Relation) : ElementCategory :=
  match r.kind with
  | .edge .. => .edge
  | .property .. => .property

/-- The number of vertices that a relation touches. -/
def arity (r : Relation) : Nat :=
  match r.kind with
  | .edge .. => 2
  | .property .. => 1

/-- The vertex at a position; past the first, an edge has its in vertex. -/
def vertex (r : Relation) (position : Nat) : VertexId :=
  match r.kind with
  | .edge outVertex inVertex => if position = 0 then outVertex else inVertex
  | .property vertex _ => vertex

/-- The far end of an edge as seen in a direction. -/
def otherVertex (r : Relation) (d : Direction) : Option VertexId :=
  match r.kind, d with
  | .edge _ inVertex, .out => some inVertex
  | .edge outVertex _, .into => some outVertex
  | _, _ => none

def value (r : Relation) : Option Value :=
  match r.kind with
  | .edge .. => none
  | .property _ value => some value

def get? (r : Relation) (key : SchemaId) : Option Value := r.properties.get? key

def identity (r : Relation) : RelationIdentity :=
  let inVertex :=
    match r.kind with
    | .edge _ inVertex => some inVertex
    | .property .. => none
  ⟨r.id, r.vertex 0, r.type, inVertex⟩

end Relation

/-- Maps hold the same keys, and equal values under each. -/
def equalProperties (a b : Properties) : Bool :=
  a.size = b.size && (a.entries.zip b.entries).all fun (x, y) => x.1 = y.1 && x.2.equals y.2

def RelationKind.equals : RelationKind → RelationKind → Bool
  | .edge a b, .edge c d => a = c && b = d
  | .property a x, .property b y => a = b && x.equals y
  | _, _ => false

/-- Equality in which values compare as queries see them. -/
def Relation.equals (a b : Relation) : Bool :=
  a.id = b.id && a.type = b.type && a.kind.equals b.kind
    && equalProperties a.properties b.properties

end GraphStore
