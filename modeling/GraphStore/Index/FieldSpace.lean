import GraphStore.Attempt
import GraphStore.Index.FieldNames

/-!
What plans and queries share: the cache of field names, the default fields, and the calls that were made
to register them. Registering a field expires the names of its index, so the next lookup sees it.
-/
namespace GraphStore

structure FieldSpace where
  cache : FieldCache
  defaults : DefaultFields
  /-- The calls to registrars, in order. -/
  calls : List RegistrarCall

namespace FieldSpace

def new (defaults : DefaultFields) : FieldSpace := ⟨.empty, defaults, []⟩

def expire (s : FieldSpace) (id : SchemaId) : Bool × FieldSpace :=
  ((s.cache.expire id).1, { s with cache := (s.cache.expire id).2 })

def invalidate (s : FieldSpace) (store : String) : Nat × FieldSpace :=
  ((s.cache.invalidate store).1, { s with cache := (s.cache.invalidate store).2 })

/-- Let an index learn of a field, unless it knows it; `true` if it has just learned of it. -/
def ensureRegistered (i : MixedIndex) (f : DefaultField) (registrar : Registrar) :
    Attempt FieldSpace IndexFault Bool := fun s =>
  let request := f.request i
  if s.defaults.isRegistered request.registration then (.ok false, s)
  else
    let answer := registrar s.calls request
    let asked := { s with calls := s.calls ++ [⟨request, answer⟩] }
    match answer with
    | .error fault => (.error (.backend fault), asked)
    | .ok () =>
      let learned := { asked with defaults := s.defaults.register request.registration }
      (.ok true, (learned.expire i.id).2)

/-- The end of a lookup that missed: compute the names and leave them in the cache. -/
def finish (types : Types) (l : OpenLookup) : Attempt FieldSpace IndexFault FieldNames := fun s =>
  match FieldNames.ofIndex types s.defaults l.index with
  | .ok names => (.ok names, { s with cache := s.cache.finish l names })
  | .error fault => (.error (.core fault), s)

/-- A lookup of the names of an index. What others do while it consults the schema is given as
`meanwhile`; it happens only if there is something to consult the schema about. -/
def namesMeanwhile (meanwhile : FieldSpace → FieldSpace) (types : Types) (i : MixedIndex) :
    Attempt FieldSpace IndexFault FieldNames := fun s =>
  match s.cache.start i with
  | .inl names => (.ok names, s)
  | .inr l => finish types l (if FieldNames.askTypes i then meanwhile s else s)

def names (types : Types) (i : MixedIndex) : Attempt FieldSpace IndexFault FieldNames :=
  namesMeanwhile id types i

/-- A key without a name: an external mapping lacks it, or a managed index does not cover it. -/
def unnamed (i : MixedIndex) (key : SchemaId) : IndexFault :=
  match i.source with
  | .external => .schemaViolation (.unmapped key i.name)
  | .managed => .invalidQuery (.notIndexed key i.name)

/-- The name of a key on the backend of an index. -/
def resolve (types : Types) (i : MixedIndex) (key : SchemaId) :
    Attempt FieldSpace IndexFault String := do
  let names ← names types i
  match names.get? key with
  | some name => return name
  | none => Attempt.fail (unnamed i key)

end FieldSpace

end GraphStore
