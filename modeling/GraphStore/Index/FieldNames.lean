import GraphStore.Index.DefaultField
import GraphStore.Schema.Types

/-!
The names that the keys of a mixed index have on its backend, and a cache of them. A lookup that misses
computes the names outside the cache, while others may expire entries; it leaves its result only if
nothing was expired since it started, which a generation counter tells.
-/
namespace GraphStore

structure FieldNames where
  store : String
  names : KeyMap String
  deriving DecidableEq, Repr

namespace FieldNames

def get? (n : FieldNames) (key : SchemaId) : Option String := n.names.get? key

/-- The least key of a name. -/
def keyOf? (n : FieldNames) (name : String) : Option SchemaId :=
  (n.names.entries.find? (·.2 = name)).map (·.1)

def size (n : FieldNames) : Nat := n.names.size

/-- The name that a declared field has, if any: the one it is mapped to, or in a managed index that of
its key. -/
def declaredName (types : Types) (source : MappingSource) (f : MixedField) :
    Except Fault (Option String) :=
  match f.mappedName, source with
  | some name, _ => .ok (some name)
  | none, .managed => (types.existing f.key).map (some ·.name)
  | none, .external => .ok none

def addDeclared (types : Types) (source : MappingSource) (names : KeyMap String) (f : MixedField) :
    Except Fault (KeyMap String) :=
  match declaredName types source f with
  | .ok (some name) => .ok (names.insert f.key name)
  | .ok none => .ok names
  | .error fault => .error fault

/-- A default field stands back behind a declared field of its key. -/
def addDefault (names : KeyMap String) (f : DefaultField) : KeyMap String :=
  if names.contains f.key then names else names.insert f.key f.name

/-- The names of an index as they are now. -/
def ofIndex (types : Types) (defaults : DefaultFields) (i : MixedIndex) :
    Except Fault FieldNames := do
  let declared ← i.fields.foldlM (addDeclared types i.source) KeyMap.empty
  return ⟨i.store, (defaults.registeredFields i.store i.name).foldl addDefault declared⟩

/-- Whether the names of an index depend on the schema. -/
def askTypes (i : MixedIndex) : Bool :=
  i.source = .managed && i.fields.any (·.mappedName.isNone)

end FieldNames

structure FieldCache where
  entries : KeyMap FieldNames
  /-- How often entries were expired or invalidated. The count is taken as unbounded: a 64-bit counter comes round
  only after 2^64 expiries, and a lookup would have to be open through all of them to be misled. -/
  generation : Nat
  deriving DecidableEq, Repr

/-- A lookup that missed, with the generation in which it started. -/
structure OpenLookup where
  index : MixedIndex
  generation : Nat
  deriving DecidableEq, Repr

namespace FieldCache

def empty : FieldCache := ⟨.empty, 0⟩

def size (c : FieldCache) : Nat := c.entries.size

def start (c : FieldCache) (i : MixedIndex) : FieldNames ⊕ OpenLookup :=
  match c.entries.get? i.id with
  | some names => .inl names
  | none => .inr ⟨i, c.generation⟩

def finish (c : FieldCache) (l : OpenLookup) (names : FieldNames) : FieldCache :=
  if c.generation = l.generation then { c with entries := c.entries.insert l.index.id names } else c

/-- Drop the names of an index, and tell whether there were any. -/
def expire (c : FieldCache) (id : SchemaId) : Bool × FieldCache :=
  (c.entries.contains id, ⟨c.entries.erase id, c.generation + 1⟩)

/-- Drop the names of all indexes of a store, and tell how many there were. -/
def invalidate (c : FieldCache) (store : String) : Nat × FieldCache :=
  let kept := c.entries.filter fun _ names => names.store ≠ store
  (c.entries.size - kept.size, ⟨kept, c.generation + 1⟩)

end FieldCache

end GraphStore
