import GraphStore.Text.Utf8

/-! Numbers and bytes in lowercase hexadecimal. -/
namespace GraphStore.Hex

def digit (n : Nat) : Char := Nat.digitChar (n % 16)

/-- The fewest digits of a number. -/
def number (n : Nat) : String := String.ofList (Nat.toDigits 16 n)

/-- The last `width` digits of a number, the most significant first. -/
def fixed : Nat → Nat → List Char
  | 0, _ => []
  | width + 1, n => digit (n / Nat.pow 16 width) :: fixed width n

def byte (b : UInt8) : String := String.ofList (fixed 2 b.toNat)

def bytes (bs : Bytes) : String := String.ofList (bs.flatMap (fun b => fixed 2 b.toNat))

def word (w : UInt64) : String := String.ofList (fixed 16 w.toNat)

def digitValue? (c : Char) : Option Nat :=
  if '0' ≤ c ∧ c ≤ '9' then some (c.toNat - 48)
  else if 'a' ≤ c ∧ c ≤ 'f' then some (c.toNat - 87)
  else if 'A' ≤ c ∧ c ≤ 'F' then some (c.toNat - 55)
  else none

/-- The bytes of an even run of digits. -/
def bytes? : List Char → Option Bytes
  | [] => some []
  | [_] => none
  | a :: b :: rest =>
    match digitValue? a, digitValue? b, bytes? rest with
    | some x, some y, some bs => some (UInt8.ofNat (16 * x + y) :: bs)
    | _, _, _ => none

/-- The number that a run of digits stands for. -/
def number? (cs : List Char) : Option Nat :=
  cs.foldl (fun acc c => acc.bind fun n => (digitValue? c).map (16 * n + ·)) (some 0)

end GraphStore.Hex
