import GraphStore.Proofs.Codec.Attribute

/-!
Dates that are stored and not read back. The milliseconds of a leap second after the last second are those of no
date, so a reader that comes to them stops there, whatever follows.
-/
namespace GraphStore

open Reading

/-- In these bytes the reader comes to a date out of range, whatever follows them. -/
def Reading.Refuses {α : Type} (r : Reading α) (x : Bytes) : Prop :=
  ∀ rest, ∃ ms left, r (x ++ rest) = (.error (.encoding (.dateOutOfRange ms)), left)

namespace Reading.Refuses

variable {α β : Type} {r : Reading α} {f : α → Reading β} {x y : Bytes} {a : α}

theorem append (refused : Refuses r x) (y : Bytes) : Refuses r (x ++ y) := by
  intro rest
  rw [List.append_assoc]
  exact refused (y ++ rest)

theorem followed (refused : Refuses r x) (f : α → Reading β) : Refuses (r >>= f) x := by
  intro rest
  obtain ⟨ms, left, failed⟩ := refused rest
  exact ⟨ms, left, Attempt.bind_run_error failed⟩

theorem bind (taken : Takes r x a) (refused : Refuses (f a) y) : Refuses (r >>= f) (x ++ y) := by
  intro rest
  rw [List.append_assoc, Attempt.bind_run_ok (taken (y ++ rest))]
  exact refused rest

theorem bind_lift {e : Except Fault α} (h : e = .ok a) (refused : Refuses (f a) x) :
    Refuses (Attempt.lift e >>= f) x := bind (.lift h) refused

end Reading.Refuses

theorem Attribute.refuses_write {declared : DataType} {mode : AttributeMode} {v : Value} {bytes : Bytes}
    (h : write declared mode v = .ok bytes) (beyond : v.isBeyond = true) : Refuses (read declared mode) bytes := by
  intro rest
  obtain ⟨t, -, refused⟩ := Value.told_of_beyond mode beyond
  exact ⟨t.millis, rest, by rw [read_write h, refused]⟩

end GraphStore
