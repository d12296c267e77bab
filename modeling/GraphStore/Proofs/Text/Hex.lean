import GraphStore.Value.Text
import Mathlib.Data.List.Basic

/-!
Bytes from their hexadecimal digits. Each byte has two of them, so bytes and the groups of a uuid are read off
by count.
-/
namespace GraphStore

namespace Hex

theorem digitValue?_digit (n : Nat) : digitValue? (digit n) = some (n % 16) := by
  have each : ∀ k < 16, digitValue? (Nat.digitChar k) = some k := by decide
  exact each (n % 16) (Nat.mod_lt n (by decide))

theorem toList_bytes (bs : Bytes) : (bytes bs).toList = bs.flatMap fun b => fixed 2 b.toNat :=
  String.toList_ofList

theorem length_bytes (bs : Bytes) : (bytes bs).toList.length = 2 * bs.length := by
  rw [toList_bytes]
  induction bs with
  | nil => rfl
  | cons b rest ih =>
    rw [List.flatMap_cons, List.length_append, ih, List.length_cons, show (fixed 2 b.toNat).length = 2 from rfl]
    omega

/-- What is written is read back. -/
theorem bytes?_bytes (bs : Bytes) : bytes? (bytes bs).toList = some bs := by
  rw [toList_bytes]
  induction bs with
  | nil => rfl
  | cons b rest ih =>
    have small := b.toNat_lt
    have whole : 16 * (b.toNat / Nat.pow 16 1 % 16) + b.toNat / Nat.pow 16 0 % 16 = b.toNat := by
      simp only [Nat.pow_eq, Nat.pow_one, Nat.pow_zero]
      omega
    show bytes? (digit (b.toNat / Nat.pow 16 1) :: digit (b.toNat / Nat.pow 16 0) ::
      rest.flatMap fun b => fixed 2 b.toNat) = _
    simp only [bytes?, digitValue?_digit, ih, whole, UInt8.ofNat_toNat]

theorem bytes_inj {bs cs : Bytes} (same : (bytes bs).toList = (bytes cs).toList) : bs = cs := by
  rw [← Option.some.injEq, ← bytes?_bytes, same, bytes?_bytes]

end Hex

namespace Uuid

/-- A group of digits, and what follows it. -/
theorem group_inj {bs cs : Bytes} {rest rest' : List Char} (long : bs.length = cs.length)
    (same : (Hex.bytes bs).toList ++ rest = (Hex.bytes cs).toList ++ rest') : bs = cs ∧ rest = rest' := by
  obtain ⟨group, others⟩ := List.append_inj same (by rw [Hex.length_bytes, Hex.length_bytes, long])
  exact ⟨Hex.bytes_inj group, others⟩

/-- The bytes of a uuid by its groups. -/
theorem bytes_groups (u : Uuid) :
    (u.bytes.drop 0).take 4 ++ (u.bytes.drop 4).take 2 ++ (u.bytes.drop 6).take 2 ++
      (u.bytes.drop 8).take 2 ++ (u.bytes.drop 10).take 6 = u.bytes := by
  rw [List.drop_zero, ← List.take_add, ← List.take_add, ← List.take_add, ← List.take_add]
  exact List.take_of_length_le (Nat.le_of_eq u.length_eq)

theorem text_inj {u w : Uuid} (same : u.text = w.text) : u = w := by
  have long : u.bytes.length = w.bytes.length := u.length_eq.trans w.length_eq.symm
  have part (first count : Nat) :
      ((u.bytes.drop first).take count).length = ((w.bytes.drop first).take count).length := by simp [long]
  rw [text, text, ← String.toList_inj] at same
  simp only [String.toList_append, List.append_assoc] at same
  obtain ⟨one, same⟩ := group_inj (part 0 4) same
  obtain ⟨two, same⟩ := group_inj (part 4 2) (List.append_cancel_left same)
  obtain ⟨three, same⟩ := group_inj (part 6 2) (List.append_cancel_left same)
  obtain ⟨four, same⟩ := group_inj (part 8 2) (List.append_cancel_left same)
  have five := Hex.bytes_inj (List.append_cancel_left same)
  have all : u.bytes = w.bytes := by
    rw [← bytes_groups u, ← bytes_groups w, one, two, three, four, five]
  cases u
  cases w
  congr

end Uuid

end GraphStore
