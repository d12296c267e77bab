import GraphStore.Index.Fault
import GraphStore.KeyMap

/-!
The definitions of all indexes. They are found by id, by name and by the keys they cover; a failing
change leaves all three as they were.
-/
namespace GraphStore

structure Catalog where
  byId : KeyMap IndexDefinition
  /-- Names with the ids they stand for, each name once. -/
  byName : List (String × SchemaId)
  /-- The ids of the indexes over a key, in the order in which they came to cover it. -/
  byKey : KeyMap (List SchemaId)
  deriving DecidableEq, Repr

namespace Catalog

def empty : Catalog := ⟨.empty, [], .empty⟩

def get? (c : Catalog) (id : SchemaId) : Option IndexDefinition := c.byId.get? id

def idOf? (c : Catalog) (name : String) : Option SchemaId :=
  (c.byName.find? (·.1 = name)).map (·.2)

def named? (c : Catalog) (name : String) : Option IndexDefinition := (c.idOf? name).bind c.get?

def size (c : Catalog) : Nat := c.byId.size

/-- The first key that a list names again. -/
def repeatedKey? : List SchemaId → List SchemaId → Option SchemaId
  | _, [] => none
  | seen, key :: rest => if key ∈ seen then some key else repeatedKey? (key :: seen) rest

def cover (byKey : KeyMap (List SchemaId)) (id key : SchemaId) : KeyMap (List SchemaId) :=
  byKey.insert key ((byKey.get? key).getD [] ++ [id])

def uncover (byKey : KeyMap (List SchemaId)) (id key : SchemaId) : KeyMap (List SchemaId) :=
  match byKey.get? key with
  | none => byKey
  | some ids =>
    let left := ids.filter (· ≠ id)
    if left.isEmpty then byKey.erase key else byKey.insert key left

def create (c : Catalog) (d : IndexDefinition) : Except Fault Catalog :=
  if d.name.isEmpty then .error (.validation .emptyIndexName)
  else if d.keys.isEmpty then .error (.validation (.noIndexFields d.name))
  else
    match repeatedKey? [] d.keys with
    | some key => .error (.validation (.repeatedIndexKey d.name key))
    | none =>
      if (c.idOf? d.name).isSome then .error (.validation (.indexNameTaken d.name))
      else if c.byId.contains d.id then .error (.validation (.indexTaken d.id))
      else
        .ok ⟨c.byId.insert d.id d, (d.name, d.id) :: c.byName,
          d.keys.foldl (fun byKey key => cover byKey d.id key) c.byKey⟩

def composite (c : Catalog) (id : SchemaId) : Except IndexFault CompositeIndex :=
  match c.get? id with
  | some (.composite i) => .ok i
  | _ => .error (.unknownId id)

def mixed (c : Catalog) (id : SchemaId) : Except IndexFault MixedIndex :=
  match c.get? id with
  | some (.mixed i) => .ok i
  | _ => .error (.unknownId id)

def addMixedField (c : Catalog) (id : SchemaId) (f : MixedField) : Except IndexFault Catalog :=
  match c.mixed id with
  | .error fault => .error fault
  | .ok i =>
    if (i.field? f.key).isSome then .error (.core (.validation (.keyAlreadyIndexed f.key i.name)))
    else
      .ok { c with
        byId := c.byId.insert id (.mixed { i with fields := i.fields ++ [f] })
        byKey := cover c.byKey id f.key }

def drop (c : Catalog) (name : String) : Except IndexFault (IndexDefinition × Catalog) :=
  match c.idOf? name with
  | none => .error (.unknownIndex name)
  | some id =>
    match c.get? id with
    | none => .error (.unknownId id)
    | some d =>
      .ok (d, ⟨c.byId.erase id, c.byName.filter (·.1 ≠ name),
        d.keys.foldl (fun byKey key => uncover byKey id key) c.byKey⟩)

/-- The indexes over a key, by ascending id. -/
def indexesForKey (c : Catalog) (key : SchemaId) : List IndexDefinition :=
  let ids := (c.byKey.get? key).getD []
  c.byId.values.filter fun d => d.id ∈ ids

/-- The mixed indexes by ascending id. -/
def mixedIndexes (c : Catalog) : List MixedIndex := c.byId.values.filterMap (·.mixed?)

end Catalog

end GraphStore
