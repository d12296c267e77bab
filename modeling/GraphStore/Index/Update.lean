import GraphStore.Index.Entry
import GraphStore.Index.FieldValue

/-!
Changes of indexes, and sets of them. A set keeps the order of arrival and takes no change twice: equal
composite updates are one, and so are updates of one value of one SINGLE or SET field, whose tags are
merged. The values of a LIST field belong to a relation each, so none is like another.
-/
namespace GraphStore

inductive UpdateKind where
  | add | delete
  deriving DecidableEq, Repr

def UpdateKind.name : UpdateKind → String
  | add => "Add"
  | delete => "Delete"

def UpdateKind.ofName? (name : String) : Option UpdateKind := [add, delete].find? (·.name = name)

/-- A change of one entry of a composite index. -/
structure CompositeUpdate where
  index : SchemaId
  kind : UpdateKind
  key : Bytes
  entry : IndexEntry
  element : Element
  /-- Seconds until the entry expires. -/
  ttl : Option Nat
  deriving DecidableEq, Repr

/-- A change of one value of a document field. -/
structure MixedUpdate where
  index : SchemaId
  store : String
  element : Element
  field : String
  cardinality : Cardinality
  kind : UpdateKind
  value : FieldValue
  ttl : Option Nat
  deriving Repr

inductive IndexUpdate where
  | composite (u : CompositeUpdate)
  | mixed (u : MixedUpdate)
  deriving Repr

/-- Whether two updates do the same to the same value of the same field. -/
def MixedUpdate.sameTarget (a b : MixedUpdate) : Bool :=
  a.cardinality ≠ .list && a.cardinality = b.cardinality && a.index = b.index && a.kind = b.kind
    && a.element = b.element && a.field = b.field && a.value.value.equals b.value.value

/-- The least time to live above zero. -/
def minTtl (ttls : List (Option Nat)) : Option Nat :=
  (ttls.filterMap id).filter (0 < ·) |>.min?

namespace IndexUpdate

def index : IndexUpdate → SchemaId
  | composite u => u.index
  | mixed u => u.index

def kind : IndexUpdate → UpdateKind
  | composite u => u.kind
  | mixed u => u.kind

def ttl : IndexUpdate → Option Nat
  | composite u => u.ttl
  | mixed u => u.ttl

def element : IndexUpdate → Element
  | composite u => u.element
  | mixed u => u.element

def composite? : IndexUpdate → Option CompositeUpdate
  | composite u => some u
  | mixed _ => none

def mixed? : IndexUpdate → Option MixedUpdate
  | composite _ => none
  | mixed u => some u

/-- What an update of a set becomes when an update like it arrives; `none` if the two differ. -/
def absorb? (held arriving : IndexUpdate) : Option IndexUpdate :=
  match held, arriving with
  | composite a, composite b => if a = b then some held else none
  | mixed a, mixed b =>
    if a.sameTarget b then some (mixed { a with value := a.value.mergeTags b.value.dsr }) else none
  | _, _ => none

end IndexUpdate

structure UpdateSet where
  updates : List IndexUpdate
  deriving Repr

namespace UpdateSet

def empty : UpdateSet := ⟨[]⟩

/-- The updates with an arriving one absorbed by the first that is like it. -/
def absorbInto (arriving : IndexUpdate) : List IndexUpdate → Option (List IndexUpdate)
  | [] => none
  | held :: rest =>
    match held.absorb? arriving with
    | some merged => some (merged :: rest)
    | none => (absorbInto arriving rest).map (held :: ·)

/-- The set with an update, and whether it is one more. -/
def insert (s : UpdateSet) (u : IndexUpdate) : Bool × UpdateSet :=
  match absorbInto u s.updates with
  | some merged => (false, ⟨merged⟩)
  | none => (true, ⟨s.updates ++ [u]⟩)

def insertAll (s : UpdateSet) (us : List IndexUpdate) : UpdateSet :=
  us.foldl (fun s u => (s.insert u).2) s

def size (s : UpdateSet) : Nat := s.updates.length

def composites (s : UpdateSet) : List CompositeUpdate := s.updates.filterMap (·.composite?)

def mixeds (s : UpdateSet) : List MixedUpdate := s.updates.filterMap (·.mixed?)

end UpdateSet

end GraphStore
