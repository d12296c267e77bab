import GraphStore.Bytes.Reading
import GraphStore.Index.Definition
import GraphStore.Index.Element

/-!
Entries under a composite key. The column tells entries of one key apart as far as the index's
cardinality allows: one for all, one for each element, or one for each choice of values. The value says
which element it is.
-/
namespace GraphStore

structure IndexEntry where
  /-- Column, then value. -/
  bytes : Bytes
  /-- Where the value starts. -/
  offset : Nat
  deriving DecidableEq, Repr

namespace IndexEntry

def column (e : IndexEntry) : Bytes := e.bytes.take e.offset

def value (e : IndexEntry) : Bytes := e.bytes.drop e.offset

def ofParts (column value : Bytes) : IndexEntry := ⟨column ++ value, column.length⟩

def columnBytes (c : Cardinality) (m : Match) (e : Element) : Bytes :=
  let document := if c = .single then [] else Bytes.escapedText e.documentId
  let relations := if c = .list then m.flatMap (fun v => Bytes.escapedText v.relation) else []
  0 :: document ++ relations

def elementBytes : Element → Bytes
  | .vertex id => Bytes.escapedText id
  | .relation r =>
    Bytes.escapedText r.relation ++ Bytes.escapedText r.outVertex ++ Bytes.orderedVarint r.type.value
      ++ (match r.inVertex with
        | some v => 1 :: Bytes.escapedText v
        | none => [0])

/-- The entry of an element that matched an index. -/
def build (i : CompositeIndex) (m : Match) (e : Element) : Except Fault IndexEntry :=
  if e.category = i.element then .ok (ofParts (columnBytes i.cardinality m e) (elementBytes e))
  else .error (.invariant (.elementCategory e.category i.element i.name))

def readInVertex : Reading (Option VertexId) := do
  let b ← Reading.byte
  if b = 0 then return none
  else if b = 1 then return some (← Reading.escapedText)
  else Attempt.fail (.encoding (.invalidInVertexMarker b))

def readElement : ElementCategory → Reading Element
  | .vertex => do return .vertex (← Reading.escapedText)
  | _ => do
    let relation ← Reading.escapedText
    let outVertex ← Reading.escapedText
    let type ← Reading.orderedVarint
    let inVertex ← readInVertex
    return .relation ⟨relation, outVertex, ⟨type⟩, inVertex⟩

def read (category : ElementCategory) : Reading Element := do
  let element ← readElement category
  if (← Reading.remaining).isEmpty then return element
  else Attempt.fail (.encoding .trailingEntryBytes)

/-- The element of an entry. Every column starts with a zero. -/
def decode (i : CompositeIndex) (e : IndexEntry) : Except Fault Element :=
  if e.bytes.length < e.offset || e.column.head? ≠ some 0 then .error (.encoding .malformedColumn)
  else (read i.element).result e.value

end IndexEntry

end GraphStore
