/-!
Binary floating point numbers of 64 bits, held as their bits. What a number is worth is said with
natural numbers: a finite one is `m · 2 ^ q`, and rounding a quotient picks the nearest of these, the
even `m` on a tie.
-/
namespace GraphStore

structure Binary64 where
  bits : UInt64
  deriving DecidableEq, Repr

namespace Binary64

/-- The bit of the sign. -/
def signBit : Nat := 0x8000000000000000

/-- The least magnitude with the next exponent; a fraction lies below it. -/
def hiddenBit : Nat := 0x10000000000000

def negative (x : Binary64) : Bool := signBit ≤ x.bits.toNat

/-- The bits below the sign. Among numbers of one sign they order as the magnitudes do. -/
def magnitude (x : Binary64) : Nat := x.bits.toNat % signBit

def exponentField (x : Binary64) : Nat := x.magnitude / hiddenBit

def fraction (x : Binary64) : Nat := x.magnitude % hiddenBit

/-- The magnitude of infinity; greater ones are not numbers. -/
def infinite : Nat := 0x7ff * hiddenBit

def isNaN (x : Binary64) : Bool := infinite < x.magnitude

def isFinite (x : Binary64) : Bool := x.magnitude < infinite

def isZero (x : Binary64) : Bool := x.magnitude = 0

/-- Zeros of either sign are equal, and what is not a number equals nothing. -/
def equals (x y : Binary64) : Bool :=
  !x.isNaN && !y.isNaN && (x.bits = y.bits || x.isZero && y.isZero)

def isBelowZero (x : Binary64) : Bool := !x.isNaN && x.negative && !x.isZero

/-- The whole number `m` of `m · 2 ^ q`. -/
def mantissa (x : Binary64) : Nat :=
  if x.exponentField = 0 then x.fraction else hiddenBit + x.fraction

/-- The power `q` of `m · 2 ^ q`. -/
def power (x : Binary64) : Int :=
  if x.exponentField = 0 then -1074 else (x.exponentField : Int) - 1075

def ofMagnitude (negative : Bool) (magnitude : Nat) : Binary64 :=
  ⟨UInt64.ofNat ((if negative then signBit else 0) + magnitude)⟩

/-- `num / den` to the nearest whole number, to the even one on a tie. -/
def roundEven (num den : Nat) : Nat :=
  let q := num / den
  let r := num % den
  if 2 * r < den then q
  else if den < 2 * r then q + 1
  else if q % 2 = 0 then q else q + 1

/-- The quotient `num / den` divided by `2 ^ e`, as a quotient again. -/
def scaled (num den : Nat) (e : Int) : Nat × Nat :=
  if 0 ≤ e then (num, den * Nat.pow 2 e.toNat) else (num * Nat.pow 2 (-e).toNat, den)

/-- The float nearest to a quotient. A quotient past the greatest float rounds to infinity. -/
def ofRatio (negative : Bool) (num den : Nat) : Binary64 :=
  if num = 0 then ofMagnitude negative 0
  else
    let guess : Int := (Nat.log2 num : Int) - Nat.log2 den - 52
    let (a, b) := scaled num den guess
    let e : Int := max (-1074) (if hiddenBit ≤ a / b then guess else guess - 1)
    let (a, b) := scaled num den e
    let m := (e + 1074).toNat * hiddenBit + roundEven a b
    ofMagnitude negative (min m infinite)

def ofNat (n : Nat) : Binary64 := ofRatio false n 1

def ofInt (i : Int) : Binary64 := ofRatio (i < 0) i.natAbs 1

/-- The ratio that a finite magnitude is worth. -/
def ratio (x : Binary64) : Nat × Nat :=
  if 0 ≤ x.power then (x.mantissa * Nat.pow 2 x.power.toNat, 1)
  else (x.mantissa, Nat.pow 2 (-x.power).toNat)

/-- The product of the magnitudes of two finite numbers, rounded, with the sign of the first. -/
def scaleUp (x y : Binary64) : Binary64 :=
  ofRatio x.negative (x.ratio.1 * y.ratio.1) (x.ratio.2 * y.ratio.2)

/-- The quotient of the magnitudes of two finite numbers, rounded, with the sign of the first. -/
def scaleDown (x y : Binary64) : Binary64 :=
  ofRatio x.negative (x.ratio.1 * y.ratio.2) (x.ratio.2 * y.ratio.1)

example : (ofNat 1).bits = 0x3ff0000000000000 ∧ (ofRatio true 1 3).bits = 0xbfd5555555555555 := by
  decide +kernel

end Binary64

end GraphStore
