import GraphStore.Text.Utf8

/-! Numbers as bytes of a fixed width, the most significant first. -/
namespace GraphStore

/-- The last `width` bytes of a number. -/
def bigEndian : Nat → Nat → Bytes
  | 0, _ => []
  | width + 1, n => UInt8.ofNat (n / Nat.pow 256 width) :: bigEndian width n

def ofBigEndian (bytes : Bytes) : Nat := bytes.foldl (fun n b => 256 * n + b.toNat) 0

@[simp] theorem bigEndian_length (width n : Nat) : (bigEndian width n).length = width := by
  induction width with
  | zero => rfl
  | succ width ih => simp [bigEndian, ih]

theorem foldl_bytes (bytes : Bytes) (start : Nat) :
    bytes.foldl (fun n b => 256 * n + b.toNat) start =
      start * Nat.pow 256 bytes.length + ofBigEndian bytes := by
  simp only [Nat.pow_eq]
  induction bytes generalizing start with
  | nil => simp [ofBigEndian]
  | cons b bytes ih =>
    simp only [List.foldl_cons, List.length_cons, ofBigEndian]
    rw [ih, ih (256 * 0 + b.toNat), Nat.pow_succ]
    simp only [Nat.mul_zero, Nat.zero_add, Nat.add_mul]
    have reorder : 256 * start * 256 ^ bytes.length = start * (256 ^ bytes.length * 256) := by
      rw [Nat.mul_comm 256 start, Nat.mul_assoc, Nat.mul_comm 256]
    omega

theorem ofBigEndian_cons (b : UInt8) (bytes : Bytes) :
    ofBigEndian (b :: bytes) = b.toNat * Nat.pow 256 bytes.length + ofBigEndian bytes := by
  simp only [ofBigEndian, List.foldl_cons]
  rw [foldl_bytes]
  simp [ofBigEndian]

theorem ofBigEndian_bigEndian (width n : Nat) :
    ofBigEndian (bigEndian width n) = n % Nat.pow 256 width := by
  simp only [Nat.pow_eq]
  induction width with
  | zero => simp [bigEndian, ofBigEndian, Nat.mod_one]
  | succ width ih =>
    rw [bigEndian, ofBigEndian_cons, bigEndian_length, ih, Nat.pow_eq, Nat.pow_succ, Nat.mod_mul]
    have low : (UInt8.ofNat (n / 256 ^ width)).toNat = n / 256 ^ width % 256 := by simp
    rw [low, Nat.mul_comm]
    omega

end GraphStore
