/-!
Sets of characters, as ascending spans of code points. A span holds its first number and ends before
its second.
-/
namespace GraphStore

abbrev Spans := List (Nat × Nat)

/-- Membership in ascending spans: the first span that ends above the number decides. -/
def Spans.holds : Spans → Nat → Bool
  | [], _ => false
  | (first, stop) :: rest, n => if n < stop then first ≤ n else Spans.holds rest n

end GraphStore
