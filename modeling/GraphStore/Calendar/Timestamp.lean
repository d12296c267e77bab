/-!
Points in time, as whole seconds from the start of 1970 and nanoseconds into the second, within the
years -262143 to 262142. Leap seconds are not counted: a point in one belongs to the second before it,
whose nanoseconds then go on past its end. Stored forms keep whole milliseconds.
-/
namespace GraphStore

structure Timestamp where
  seconds : Int
  nanos : Nat
  nanos_lt : nanos < 2000000000
  seconds_in_range : -8334601228800 ≤ seconds ∧ seconds ≤ 8210266876799
  deriving DecidableEq, Repr

namespace Timestamp

/-- Past the end of its second, in a leap second. -/
def isLeap (t : Timestamp) : Bool := 1000000000 ≤ t.nanos

def ofParts? (seconds : Int) (nanos : Nat) : Option Timestamp :=
  if h : nanos < 2000000000 ∧ -8334601228800 ≤ seconds ∧ seconds ≤ 8210266876799 then
    some ⟨seconds, nanos, h.1, h.2⟩
  else none

/-- Whole milliseconds, rounded down. Those of a leap second are also those of the second after it. -/
def millis (t : Timestamp) : Int := t.seconds * 1000 + (t.nanos / 1000000 : Nat)

def ofMillis? (ms : Int) : Option Timestamp :=
  ofParts? (ms / 1000) ((ms % 1000).toNat * 1000000)

end Timestamp

end GraphStore
