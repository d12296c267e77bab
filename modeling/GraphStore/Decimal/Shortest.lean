import GraphStore.Decimal.Binary64

/-!
The fewest decimal digits that read back as a given binary number, and of those the nearest to it.

Every decimal between the two midpoints around a float rounds to it (the midpoints too if its mantissa
is even). A grid of `k` digits has a point in that interval only if one of the two grid neighbours of
the float lies in it, so it is enough to try those two for one digit, two digits and so on.
-/
namespace GraphStore.Decimal

open GraphStore (Binary64)

/-- Digits, the first of them not zero, and the place of the point: `0.d₁d₂… · 10 ^ point`. -/
structure Digits where
  digits : List Nat
  point : Int
  deriving DecidableEq, Repr

/-- The interval that rounds to a positive float, over one denominator. -/
structure Interval where
  low : Nat
  value : Nat
  high : Nat
  den : Nat
  closed : Bool

/-- Four parts to a unit of the mantissa: the lower midpoint is nearer at a power of two. -/
def interval (x : Binary64) : Interval :=
  let m := x.mantissa
  let low := if x.fraction = 0 ∧ 1 < x.exponentField then 4 * m - 1 else 4 * m - 2
  let q := x.power - 2
  let up := if 0 ≤ q then Nat.pow 2 q.toNat else 1
  let den := if 0 ≤ q then 1 else Nat.pow 2 (-q).toNat
  ⟨low * up, 4 * m * up, (4 * m + 2) * up, den, m % 2 = 0⟩

/-- Whether `d · 10 ^ p` reads back. -/
def Interval.holds (i : Interval) (d : Nat) (p : Int) : Bool :=
  let n := if 0 ≤ p then d * Nat.pow 10 p.toNat * i.den else d * i.den
  let s := if 0 ≤ p then 1 else Nat.pow 10 (-p).toNat
  if i.closed then i.low * s ≤ n && n ≤ i.high * s else i.low * s < n && n < i.high * s

/-- The number of digits before the point of `num / den`; below one, minus the zeros after it. -/
def pointOf (num den : Nat) : Int :=
  if den ≤ num then (Nat.toDigits 10 (num / den)).length
  else
    -- the least `k` with `num * 10 ^ k ≥ den` has about the difference of the digit counts
    let k := (Nat.toDigits 10 (den / num)).length
    if den ≤ num * Nat.pow 10 (k - 1) then 2 - (k : Int) else 1 - (k : Int)

/-- The better of the two neighbours of the value on the grid of `10 ^ p`. A tie goes to the upper
neighbour, or to the even one if `toEven`. -/
def Interval.onGrid (i : Interval) (toEven : Bool) (p : Int) : Option Nat :=
  let num := if 0 ≤ p then i.value else i.value * Nat.pow 10 (-p).toNat
  let den := if 0 ≤ p then i.den * Nat.pow 10 p.toNat else i.den
  let d := num / den
  let r := num % den
  match i.holds d p && 0 < d, i.holds (d + 1) p with
  | true, true =>
    if 2 * r < den || 2 * r = den && toEven && d % 2 = 0 then some d else some (d + 1)
  | true, false => some d
  | false, true => some (d + 1)
  | false, false => none

/-- Zeros at the end say nothing: a step up from a row of nines leaves them. -/
def trim (digits : List Nat) : List Nat := (digits.reverse.dropWhile (· = 0)).reverse

def Interval.search (i : Interval) (toEven : Bool) (point : Int) : Nat → Nat → Digits
  | 0, _ => ⟨[], point⟩
  | fuel + 1, k =>
    match i.onGrid toEven (point - k) with
    | some d =>
      let digits := (Nat.toDigits 10 d).map (fun c => c.toNat - 48)
      ⟨trim digits, point - k + digits.length⟩
    | none => i.search toEven point fuel (k + 1)

/-- The shortest digits of a finite number that is not zero. Seventeen digits always read back. -/
def shortest (toEven : Bool) (x : Binary64) : Digits :=
  let i := interval x
  i.search toEven (pointOf i.value i.den) 17 1

end GraphStore.Decimal
