import GraphStore.Bytes.BigEndian

/-!
Byte forms that tell where they end. The ordered varint and the escaped form also sort, byte by byte, as
what they stand for.
-/
namespace GraphStore.Bytes

/-- A length of 32 bits, then the bytes. -/
def lengthPrefixed (bytes : Bytes) : Bytes := bigEndian 4 bytes.length ++ bytes

/-- The fewest bytes that hold a number of 64 bits, at least one. -/
def significantBytes (n : Nat) : Nat :=
  if n < 256 then 1
  else if n < 0x10000 then 2
  else if n < 0x1000000 then 3
  else if n < 0x100000000 then 4
  else if n < 0x10000000000 then 5
  else if n < 0x1000000000000 then 6
  else if n < 0x100000000000000 then 7
  else 8

/-- A byte for the number of significant bytes, then those. A longer number has a greater first byte. -/
def orderedVarint (n : UInt64) : Bytes :=
  let width := significantBytes n.toNat
  UInt8.ofNat width :: bigEndian width n.toNat

/-- Zeros inside become `00 01`, and `00 00` ends the whole. -/
def escaped : Bytes → Bytes
  | [] => [0, 0]
  | b :: rest => if b = 0 then 0 :: 1 :: escaped rest else b :: escaped rest

def escapedText (s : String) : Bytes := escaped (Utf8.encode s)

/-- Every bit the other way, which turns the order of bytes around. -/
def flip (bytes : Bytes) : Bytes := bytes.map (~~~ ·)

/-- Flip what stands at `start` and after, before `stop`. -/
def flipRange (start stop : Nat) (bytes : Bytes) : Bytes :=
  if start < stop then
    bytes.take start ++ flip ((bytes.take stop).drop start) ++ bytes.drop stop
  else bytes

/-- Comparison of unsigned bytes, the first difference deciding; a proper start comes first. -/
def less : Bytes → Bytes → Bool
  | _, [] => false
  | [], _ :: _ => true
  | a :: as, b :: bs => a < b || a = b && less as bs

theorem flip_flip (bytes : Bytes) : flip (flip bytes) = bytes := by
  simp only [flip, List.map_map]
  exact (List.map_congr_left (fun b _ => by simp)).trans (List.map_id bytes)

end GraphStore.Bytes
