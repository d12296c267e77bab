import GraphStore.Bytes.Reading

/-!
The header at the front of every record key: the relation type, the slot and the visibility in one
ordered varint. Records of one type lie together, and within them first the properties, then the edges
seen from their tails, then those seen from their heads.
-/
namespace GraphStore

/-- Where a relation type puts a record. The number 1 is not in use. -/
inductive Slot where
  | property | edgeOut | edgeIn
  deriving DecidableEq, Repr

namespace Slot

def name : Slot → String
  | property => "Property"
  | edgeOut => "EdgeOut"
  | edgeIn => "EdgeIn"

def number : Slot → Nat
  | property => 0
  | edgeOut => 2
  | edgeIn => 3

def ofNumber (n : Nat) : Except Fault Slot :=
  match n with
  | 0 => .ok property
  | 2 => .ok edgeOut
  | 3 => .ok edgeIn
  | n => .error (.encoding (.invalidSlot n))

def ofDirection : Direction → Except Fault Slot
  | .out => .ok edgeOut
  | .into => .ok edgeIn
  | .both => .error (.validation .bothHasNoSlot)

/-- The direction in which the owner of a record sees the relation. -/
def direction : Slot → Direction
  | property => .out
  | edgeOut => .out
  | edgeIn => .into

theorem number_lt (s : Slot) : s.number < 4 := by cases s <;> decide

theorem ofNumber_number (s : Slot) : ofNumber s.number = .ok s := by cases s <;> rfl

end Slot

structure Header where
  type : SchemaId
  slot : Slot
  invisible : Bool
  deriving DecidableEq, Repr

namespace Header

/-- Type id, two bits of slot and one of visibility. -/
def packed (h : Header) : Nat :=
  8 * h.type.toNat + 2 * h.slot.number + (if h.invisible then 1 else 0)

def write (h : Header) : Except Fault Bytes :=
  if SchemaId.greatest < h.type.toNat then .error (.validation (.typeOutOfRange h.type))
  else .ok (Bytes.orderedVarint (UInt64.ofNat h.packed))

def read : Reading Header := do
  let n := (← Reading.orderedVarint).toNat
  let slot ← Attempt.lift (Slot.ofNumber (n / 2 % 4))
  return ⟨.ofNat (n / 8), slot, n % 2 = 1⟩

end Header

end GraphStore
