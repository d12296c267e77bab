import GraphStore.Index.Fault
import GraphStore.KeyMap

/-!
Keys that every mixed vertex index takes in without declaring them, under reserved field names. A
backend index learns of such a field when the first value for it arrives; which indexes have learned of
which fields is kept, so that none is told twice.
-/
namespace GraphStore

structure DefaultField where
  key : SchemaId
  name : String
  type : DataType
  mapping : Mapping
  deriving DecidableEq, Repr

/-- A field that the backend index of a store is to learn of. -/
structure FieldRequest where
  store : String
  index : String
  field : String
  type : DataType
  mapping : Mapping
  deriving DecidableEq, Repr

/-- What is remembered of a request that went well. -/
structure Registration where
  store : String
  index : String
  field : String
  deriving DecidableEq, Repr

def FieldRequest.registration (r : FieldRequest) : Registration := ⟨r.store, r.index, r.field⟩

def DefaultField.request (f : DefaultField) (i : MixedIndex) : FieldRequest :=
  ⟨i.store, i.name, f.name, f.type, f.mapping⟩

/-- A request that was put to a backend, and the answer. -/
structure RegistrarCall where
  request : FieldRequest
  answer : Except BackendFault Unit

def RegistrarCall.succeeded (c : RegistrarCall) : Bool :=
  match c.answer with
  | .ok () => true
  | .error _ => false

/-- A backend that takes on new fields. Its answer may depend on all it was asked before. -/
abbrev Registrar := List RegistrarCall → FieldRequest → Except BackendFault Unit

structure DefaultFields where
  fields : KeyMap DefaultField
  registered : List Registration
  deriving DecidableEq, Repr

namespace DefaultFields

def empty : DefaultFields := ⟨.empty, []⟩

/-- A field of the same key gives way. -/
def insert (d : DefaultFields) (f : DefaultField) : DefaultFields :=
  { d with fields := d.fields.insert f.key f }

def field? (d : DefaultFields) (key : SchemaId) : Option DefaultField := d.fields.get? key

def isRegistered (d : DefaultFields) (r : Registration) : Bool := r ∈ d.registered

/-- The fields that an index has learned of, by ascending key. -/
def registeredFields (d : DefaultFields) (store index : String) : List DefaultField :=
  d.fields.values.filter fun f => d.isRegistered ⟨store, index, f.name⟩

def register (d : DefaultFields) (r : Registration) : DefaultFields :=
  { d with registered := r :: d.registered }

end DefaultFields

end GraphStore
