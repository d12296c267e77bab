/-!
Names of things in a graph: schema elements carry a number, vertices and relations a text of the
caller's choosing.
-/
namespace GraphStore

/-- The number of a relation type, a vertex label or an index. -/
structure SchemaId where
  value : UInt64
  deriving DecidableEq, Repr

abbrev VertexId := String
abbrev RelationId := String

namespace SchemaId

def ofNat (n : Nat) : SchemaId := ⟨UInt64.ofNat n⟩

def toNat (id : SchemaId) : Nat := id.value.toNat

/-- A record header shares one word between the id, two bits of direction and one of visibility,
so ids above this bound have no header. -/
def greatest : Nat := 0x1fffffffffffffff

def text (id : SchemaId) : String := "#" ++ toString id.toNat

instance : LT SchemaId := ⟨fun a b => a.toNat < b.toNat⟩
instance (a b : SchemaId) : Decidable (a < b) := inferInstanceAs (Decidable (a.toNat < b.toNat))

theorem lt_iff {a b : SchemaId} : a < b ↔ a.toNat < b.toNat := Iff.rfl

theorem toNat_lt (id : SchemaId) : id.toNat < UInt64.size := id.value.toNat_lt

theorem toNat_inj {a b : SchemaId} : a.toNat = b.toNat ↔ a = b := by
  cases a
  cases b
  simp [toNat, UInt64.toNat_inj]

theorem toNat_ofNat {n : Nat} (h : n < UInt64.size) : (ofNat n).toNat = n := by
  simp only [toNat, ofNat, UInt64.toNat_ofNat', UInt64.size] at *
  omega

@[simp] theorem ofNat_toNat (id : SchemaId) : ofNat id.toNat = id := by
  cases id
  simp [toNat, ofNat]

end SchemaId

end GraphStore
