import GraphStore.Bytes.Writing
import GraphStore.Fault

/-!
The least byte string above everything that starts with given bytes: trailing `FF` bytes go, and the
last byte left goes up by one. If all are `FF`, nothing lies above.
-/
namespace GraphStore.Bytes

/-- The same on bytes held last first. -/
def bumpLast : Bytes → Option Bytes
  | [] => none
  | b :: rest => if b = 0xff then bumpLast rest else some ((b + 1) :: rest)

def above (start : Bytes) : Except Fault Bytes :=
  match bumpLast start.reverse with
  | some bumped => .ok bumped.reverse
  | none => .error (.validation .nothingBigger)

end GraphStore.Bytes
