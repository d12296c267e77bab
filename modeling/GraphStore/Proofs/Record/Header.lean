import GraphStore.Proofs.Bytes.Reading
import GraphStore.Record.Header

/-!
Headers divide the space of keys. A header is the number that its fields make as bits of one word, and the
number has one form of bytes, which sorts as it does and tells where it ends. So what follows two headers
never decides between them.
-/
namespace GraphStore

open Bytes (Compares)

/-- Where the records of a slot lie among those of a type. -/
def Slot.rank : Slot → Nat
  | property => 0
  | edgeOut => 1
  | edgeIn => 2

theorem Slot.compare_number (a b : Slot) : compare a.number b.number = compare a.rank b.rank := by
  cases a <;> cases b <;> rfl

namespace Header

/-- By type id, then by slot, and what is visible before what is not. -/
def order (g h : Header) : Ordering :=
  (compare g.type.toNat h.type.toNat).then
    ((compare g.slot.rank h.slot.rank).then (compare g.invisible h.invisible))

/-- The fields side by side, the id in the highest bits. -/
def word (h : Header) : UInt64 :=
  h.type.value <<< 3 ||| UInt64.ofNat h.slot.number <<< 1 ||| if h.invisible then 1 else 0

variable {g h : Header} {x y bytes : Bytes}

/-- The number of a header, place by place. -/
theorem packed_eq (h : Header) :
    h.packed = h.type.toNat * 8 + (h.slot.number * 2 + h.invisible.toNat) := by
  rw [packed]
  cases h.invisible <;> simp <;> omega

theorem places_lt (h : Header) : h.slot.number * 2 + h.invisible.toNat < 8 := by
  have slot := h.slot.number_lt
  have flag := h.invisible.toNat_lt
  omega

theorem compare_packed (g h : Header) : compare g.packed h.packed = g.order h := by
  have flags : compare g.invisible.toNat h.invisible.toNat = compare g.invisible h.invisible := by
    cases g.invisible <;> cases h.invisible <;> rfl
  rw [packed_eq, packed_eq, Bytes.compare_place g.places_lt h.places_lt,
    Bytes.compare_place g.invisible.toNat_lt h.invisible.toNat_lt, Slot.compare_number, flags, order]

/-- No bit of an id in range is shifted out, so the word is the number. -/
theorem toNat_word (inRange : h.type.toNat ≤ SchemaId.greatest) : h.word.toNat = h.packed := by
  have slot := h.slot.number_lt
  have places := h.places_lt
  have type : (h.type.value <<< 3).toNat = 2 ^ 3 * h.type.toNat := by
    rw [UInt64.toNat_shiftLeft, Nat.shiftLeft_eq]
    simp only [SchemaId.toNat, SchemaId.greatest, UInt64.reduceToNat, Nat.reduceMod, Nat.reducePow] at *
    omega
  have middle : (UInt64.ofNat h.slot.number <<< 1).toNat = 2 ^ 1 * h.slot.number := by
    rw [UInt64.toNat_shiftLeft, Nat.shiftLeft_eq, UInt64.toNat_ofNat']
    simp only [UInt64.reduceToNat, Nat.reduceMod, Nat.reducePow]
    omega
  have last : (if h.invisible then 1 else 0 : UInt64).toNat = h.invisible.toNat := by
    cases h.invisible <;> rfl
  -- Each field lies below the bits of the one before it, so that putting them together adds them.
  have low : 2 ^ 1 * h.slot.number ||| h.invisible.toNat = 2 ^ 1 * h.slot.number + h.invisible.toNat :=
    (Nat.two_pow_add_eq_or_of_lt h.invisible.toNat_lt _).symm
  have room : 2 ^ 1 * h.slot.number + h.invisible.toNat < 2 ^ 3 := by omega
  rw [word, UInt64.toNat_or, UInt64.toNat_or, type, middle, last, Nat.or_assoc, low,
    ← Nat.two_pow_add_eq_or_of_lt room, packed_eq]
  omega

theorem word_shiftRight (inRange : h.type.toNat ≤ SchemaId.greatest) : h.word >>> 3 = h.type.value := by
  have places := h.places_lt
  rw [← UInt64.toNat_inj, UInt64.toNat_shiftRight, toNat_word inRange, packed_eq, Nat.shiftRight_eq_div_pow]
  simp only [SchemaId.toNat, UInt64.reduceToNat, Nat.reduceMod, Nat.reducePow]
  omega

theorem write_ok (written : h.write = .ok bytes) :
    h.type.toNat ≤ SchemaId.greatest ∧ bytes = Bytes.orderedVarint h.word := by
  simp only [write] at written
  split at written
  · cases written
  · next within =>
    have inRange : h.type.toNat ≤ SchemaId.greatest := Nat.le_of_not_lt within
    refine ⟨inRange, ?_⟩
    rw [← Except.ok.inj written, ← toNat_word inRange, UInt64.ofNat_toNat]

theorem write_exists_iff : (∃ bytes, h.write = .ok bytes) ↔ h.type.toNat ≤ SchemaId.greatest := by
  constructor
  · rintro ⟨bytes, written⟩
    exact (write_ok written).1
  · intro inRange
    exact ⟨_, if_neg (Nat.not_lt.2 inRange)⟩

theorem takes_read (written : h.write = .ok bytes) : Reading.Takes read bytes h := by
  obtain ⟨inRange, rfl⟩ := write_ok written
  have slot := h.slot.number_lt
  have flag := h.invisible.toNat_lt
  have number := (toNat_word inRange).trans h.packed_eq
  have type : h.word.toNat / 8 = h.type.toNat := by omega
  have middle : h.word.toNat / 2 % 4 = h.slot.number := by omega
  have last : decide (h.word.toNat % 2 = 1) = h.invisible := by
    have bit : h.word.toNat % 2 = h.invisible.toNat := by omega
    rw [bit]
    cases h.invisible <;> rfl
  intro rest
  rw [read, Attempt.bind_run_ok (Reading.takes_orderedVarint _ rest)]
  simp only [middle, type, last]
  rw [Attempt.bind_run_ok (Attempt.lift_run (Slot.ofNumber_number _) rest)]
  simp

theorem compares_write (left : g.write = .ok x) (right : h.write = .ok y) :
    Compares x y (compare g.packed h.packed) := by
  obtain ⟨inRange, rfl⟩ := write_ok left
  obtain ⟨inRange', rfl⟩ := write_ok right
  rw [← toNat_word inRange, ← toNat_word inRange']
  exact Bytes.compares_orderedVarint g.word h.word

theorem write_injective (left : g.write = .ok x) (right : h.write = .ok x) : g = h := by
  have read := (takes_read left []).symm.trans (takes_read right [])
  exact Except.ok.inj (Prod.mk.inj read).1

/-- Ordered varints sort as their numbers and tell where they end, and so do headers. There is a header for each
type id whose bits all have room in a word beside the slot and the visibility. It is read as it was, no header
goes on from another, and they sort by type, then by slot, then by visibility, whatever follows them. -/
theorem partitions :
    (∀ (m n : UInt64) (s t : Bytes),
      Reading.orderedVarint (Bytes.orderedVarint m ++ s) = (.ok m, s) ∧
        (m ≠ n → compare (Bytes.orderedVarint m ++ s) (Bytes.orderedVarint n ++ t) =
          compare m.toNat n.toNat)) ∧
      ∀ g : Header, ((∃ x, g.write = .ok x) ↔ g.type.toNat ≤ Nat.pow 2 61 - 1) ∧
        ∀ x, g.write = .ok x →
          x = Bytes.orderedVarint g.word ∧ g.word >>> 3 = g.type.value ∧
            (∀ s, read (x ++ s) = (.ok g, s)) ∧
            ∀ h y, h.write = .ok y → g ≠ h →
              ¬ x <+: y ∧ ∀ s t, compare (x ++ s) (y ++ t) = g.order h := by
  refine ⟨fun m n s t => ⟨Reading.takes_orderedVarint m s, fun apart => ?_⟩, fun g => ?_⟩
  · have decided : compare m.toNat n.toNat ≠ .eq := by
      rw [ne_eq, Nat.compare_eq_eq, UInt64.toNat_inj]
      exact apart
    exact ((Bytes.compares_orderedVarint m n).extend decided s t).result
  · refine ⟨write_exists_iff, fun x written => ?_⟩
    obtain ⟨inRange, form⟩ := write_ok written
    refine ⟨form, word_shiftRight inRange, takes_read written, fun h y written' apart => ?_⟩
    have compared := compares_write written written'
    rw [compare_packed] at compared
    have different : x ≠ y := fun same => apart (write_injective written (same ▸ written'))
    have decided : g.order h ≠ .eq := fun equal => different (compared.eq_iff.1 equal)
    refine ⟨fun start => different (compared.eq_of_prefix start), fun s t => ?_⟩
    exact (compared.extend decided s t).result

end Header

end GraphStore
