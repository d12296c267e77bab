/-! The ends of a relation, and how many relations of a type may meet at them. -/
namespace GraphStore

/-- How a vertex sees an edge: from its tail, from its head, or from either. -/
inductive Direction where
  | out | into | both
  deriving DecidableEq, Repr

/-- How many relations of one type a vertex may have at the out and at the in end. -/
inductive Multiplicity where
  | multi | simple | manyToOne | oneToMany | oneToOne
  deriving DecidableEq, Repr

/-- How many values of one key a vertex may have. -/
inductive Cardinality where
  | single | set | list
  deriving DecidableEq, Repr

inductive SortOrder where
  | ascending | descending
  deriving DecidableEq, Repr

/-- What an index or a query is about. -/
inductive ElementCategory where
  | vertex | edge | property
  deriving DecidableEq, Repr

namespace Direction

def name : Direction → String
  | out => "Out"
  | into => "In"
  | both => "Both"

/-- The out vertex stands at position 0. -/
def ofPosition (position : Nat) : Direction := if position = 0 then out else into

def opposite : Direction → Direction
  | out => into
  | into => out
  | both => both

def all : List Direction := [out, into, both]

def ofName? (name : String) : Option Direction := all.find? (·.name = name)

end Direction

namespace Multiplicity

def name : Multiplicity → String
  | multi => "Multi"
  | simple => "Simple"
  | manyToOne => "Many2One"
  | oneToMany => "One2Many"
  | oneToOne => "One2One"

def isConstrained (m : Multiplicity) : Bool := m ≠ multi

/-- Whether a vertex has at most one relation of the type in a direction. -/
def isUnique (m : Multiplicity) : Direction → Bool
  | .out => m = manyToOne || m = oneToOne
  | .into => m = oneToMany || m = oneToOne
  | .both => m = oneToOne

def ofCardinality : Cardinality → Multiplicity
  | .single => manyToOne
  | .set => simple
  | .list => multi

def cardinality : Multiplicity → Cardinality
  | multi => .list
  | simple => .set
  | _ => .single

theorem cardinality_ofCardinality (c : Cardinality) : (ofCardinality c).cardinality = c := by
  cases c <;> rfl

def all : List Multiplicity := [multi, simple, manyToOne, oneToMany, oneToOne]

def ofName? (name : String) : Option Multiplicity := all.find? (·.name = name)

end Multiplicity

namespace Cardinality

def name : Cardinality → String
  | single => "Single"
  | set => "Set"
  | list => "List"

def all : List Cardinality := [single, set, list]

def ofName? (name : String) : Option Cardinality := all.find? (·.name = name)

end Cardinality

namespace SortOrder

def name : SortOrder → String
  | ascending => "Asc"
  | descending => "Desc"

def all : List SortOrder := [ascending, descending]

def ofName? (name : String) : Option SortOrder := all.find? (·.name = name)

end SortOrder

namespace ElementCategory

def name : ElementCategory → String
  | vertex => "Vertex"
  | edge => "Edge"
  | property => "Property"

def all : List ElementCategory := [vertex, edge, property]

def ofName? (name : String) : Option ElementCategory := all.find? (·.name = name)

end ElementCategory

end GraphStore
