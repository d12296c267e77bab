import GraphStore.Attempt
import GraphStore.Bytes.Writing
import GraphStore.Fault

/-!
Reading bytes from the front. A reading yields a value or a fault, and in either case the bytes it has
left: a failed step keeps what was read before it. Each reader here takes what the writer of the same
name leaves.
-/
namespace GraphStore

abbrev Reading (α : Type) : Type := Attempt Bytes Fault α

namespace Reading

/-- The bytes not yet read. -/
def remaining : Reading Bytes := Attempt.get

def byte : Reading UInt8
  | [] => (.error (.encoding .endOfInput), [])
  | b :: rest => (.ok b, rest)

/-- A count of bytes, all or nothing. -/
def take (n : Nat) : Reading Bytes := fun bytes =>
  if n ≤ bytes.length then (.ok (bytes.take n), bytes.drop n)
  else (.error (.encoding .endOfInput), bytes)

/-- A number of `width` bytes. -/
def number (width : Nat) : Reading Nat := do
  return ofBigEndian (← take width)

def word : Reading UInt64 := do
  return UInt64.ofNat (← number 8)

def lengthPrefixed : Reading Bytes := do
  take (← number 4)

def orderedVarint : Reading UInt64 := do
  let width ← byte
  if 1 ≤ width.toNat ∧ width.toNat ≤ 8 then return UInt64.ofNat (← number width.toNat)
  else Attempt.fail (.encoding (.invalidVarintLength width))

def escaped : Reading Bytes
  | [] => (.error (.encoding .missingTerminator), [])
  | [b] =>
    if b = 0 then (.error (.encoding .endOfInput), [])
    else (.error (.encoding .missingTerminator), [])
  | b :: c :: rest =>
    if b = 0 then
      if c = 0 then (.ok [], rest)
      else if c = 1 then
        match escaped rest with
        | (.ok bytes, left) => (.ok (0 :: bytes), left)
        | (.error fault, left) => (.error fault, left)
      else (.error (.encoding (.invalidEscape c)), rest)
    else
      match escaped (c :: rest) with
      | (.ok bytes, left) => (.ok (b :: bytes), left)
      | (.error fault, left) => (.error fault, left)

/-- Bytes as text. -/
def decodeText (bytes : Bytes) : Except Fault String :=
  match Utf8.decode bytes with
  | .ok s => .ok s
  | .error fault => .error (.encoding (.invalidUtf8 fault))

def escapedText : Reading String := do
  Attempt.lift (decodeText (← escaped))

/-- The value of a reading, whatever it leaves. -/
def result {α : Type} (r : Reading α) (bytes : Bytes) : Except Fault α := (r bytes).1

theorem escaped_escaped (bytes rest : Bytes) :
    escaped (Bytes.escaped bytes ++ rest) = (.ok bytes, rest) := by
  induction bytes with
  | nil => simp [Bytes.escaped, escaped]
  | cons b bytes ih =>
    by_cases zero : b = 0
    · simp [Bytes.escaped, escaped, zero, ih]
    · have more : ∃ c left, Bytes.escaped bytes ++ rest = c :: left := by
        cases bytes with
        | nil => exact ⟨0, 0 :: rest, by simp [Bytes.escaped]⟩
        | cons c bytes => by_cases h : c = 0 <;> simp [Bytes.escaped, h]
      obtain ⟨c, left, shape⟩ := more
      simp only [Bytes.escaped, zero, if_false, List.cons_append]
      rw [shape, escaped, if_neg zero, ← shape, ih]

end Reading

end GraphStore
