import GraphStore.Graph.Relation

/-! Vertices with the property relations they hold, in the order in which they came. -/
namespace GraphStore

structure VertexProperty where
  id : RelationId
  key : SchemaId
  value : Value
  /-- Properties of the property. -/
  metadata : Properties
  deriving DecidableEq, Repr

structure Vertex where
  id : VertexId
  label : Option SchemaId
  properties : List VertexProperty
  deriving DecidableEq, Repr

def VertexProperty.equals (a b : VertexProperty) : Bool :=
  a.id = b.id && a.key = b.key && a.value.equals b.value && equalProperties a.metadata b.metadata

namespace Vertex

def add (v : Vertex) (p : VertexProperty) : Vertex := { v with properties := v.properties ++ [p] }

/-- The properties of a key. -/
def propertiesOf (v : Vertex) (key : SchemaId) : List VertexProperty :=
  v.properties.filter (·.key = key)

/-- Take away the first property with an id, and give it back. -/
def remove (v : Vertex) (id : RelationId) : Option VertexProperty × Vertex :=
  (v.properties.find? (·.id = id),
    { v with properties := v.properties.eraseP (·.id = id) })

def equals (a b : Vertex) : Bool :=
  a.id = b.id && a.label = b.label && a.properties.length = b.properties.length
    && (a.properties.zip b.properties).all fun (p, q) => p.equals q

end Vertex

end GraphStore
