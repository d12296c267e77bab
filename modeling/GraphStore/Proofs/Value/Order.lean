import GraphStore.Codec.Compact
import Mathlib.Order.Monotone.Basic

/-!
How values of one type compare where they sort: integers and dates by number, texts and byte strings
byte by byte, points by latitude and then by longitude. Floating point numbers compare by worth, the
negative zero before the positive one, and what is not a number is one value after all others.
-/
namespace GraphStore

namespace Binary64

/-- The worth of the magnitude in units of the least positive number. Infinity counts as what would
follow the greatest number. -/
def units (x : Binary64) : Nat := x.mantissa * Nat.pow 2 (x.power + 1074).toNat

def worth (x : Binary64) : Int := if x.negative then -x.units else x.units

def order (x y : Binary64) : Ordering :=
  match x.isNaN, y.isNaN with
  | true, true => .eq
  | true, false => .gt
  | false, true => .lt
  | false, false => (compare x.worth y.worth).then (compare y.negative x.negative)

/-- The worth of an exponent field and a fraction. -/
def unitsOf (exponent fraction : Nat) : Nat :=
  (if exponent = 0 then fraction else hiddenBit + fraction) * Nat.pow 2 (exponent - 1)

theorem unitsOf_lt_fraction (e : Nat) {f g : Nat} (h : f < g) : unitsOf e f < unitsOf e g := by
  refine Nat.mul_lt_mul_of_pos_right ?_ (Nat.two_pow_pos _)
  split <;> omega

/-- The least number of an exponent is worth more than the greatest of the exponent before. -/
theorem unitsOf_carry (e : Nat) : unitsOf e (hiddenBit - 1) < unitsOf (e + 1) 0 := by
  cases e with
  | zero => decide
  | succ e =>
    have := Nat.two_pow_pos e
    simp only [unitsOf, Nat.add_one_ne_zero, if_false, Nat.add_sub_cancel, Nat.pow_eq, Nat.pow_succ,
      hiddenBit]
    omega

theorem units_eq (x : Binary64) : x.units = unitsOf x.exponentField x.fraction := by
  by_cases zero : x.exponentField = 0
  · simp [units, unitsOf, mantissa, power, zero]
  · have exponent : ((x.exponentField : Int) - 1075 + 1074).toNat = x.exponentField - 1 := by omega
    simp [units, unitsOf, mantissa, power, zero, exponent]

/-- A greater magnitude is worth more, also across the exponents. -/
theorem unitsOf_strictMono : StrictMono fun m => unitsOf (m / hiddenBit) (m % hiddenBit) := by
  refine strictMono_nat_of_lt_succ fun m => ?_
  by_cases last : m % hiddenBit = hiddenBit - 1
  · have next : (m + 1) / hiddenBit = m / hiddenBit + 1 := by simp only [hiddenBit] at *; omega
    have start : (m + 1) % hiddenBit = 0 := by simp only [hiddenBit] at *; omega
    simp only [next, start, last]
    exact unitsOf_carry _
  · have next : (m + 1) / hiddenBit = m / hiddenBit := by simp only [hiddenBit] at *; omega
    have more : (m + 1) % hiddenBit = m % hiddenBit + 1 := by simp only [hiddenBit] at *; omega
    simp only [next, more]
    exact unitsOf_lt_fraction _ (Nat.lt_succ_self _)

theorem units_lt_iff (x y : Binary64) : x.units < y.units ↔ x.magnitude < y.magnitude := by
  rw [units_eq, units_eq]
  exact unitsOf_strictMono.lt_iff_lt

theorem units_inj (x y : Binary64) : x.units = y.units ↔ x.magnitude = y.magnitude := by
  rw [units_eq, units_eq]
  exact unitsOf_strictMono.injective.eq_iff

theorem bits_eq (x : Binary64) :
    x.bits.toNat = (if x.negative then signBit else 0) + x.magnitude := by
  have range := x.bits.toNat_lt
  by_cases sign : signBit ≤ x.bits.toNat
  · simp only [negative, magnitude, sign, decide_true, if_true]
    simp only [signBit] at *
    omega
  · simp only [negative, magnitude, sign, decide_false, Bool.false_eq_true, if_false]
    simp only [signBit] at *
    omega

theorem units_compare (x y : Binary64) : compare x.units y.units = compare x.magnitude y.magnitude := by
  rcases Nat.lt_trichotomy x.magnitude y.magnitude with h | h | h
  · rw [Nat.compare_eq_lt.2 h, Nat.compare_eq_lt.2 ((units_lt_iff x y).2 h)]
  · rw [Nat.compare_eq_eq.2 h, Nat.compare_eq_eq.2 ((units_inj x y).2 h)]
  · rw [Nat.compare_eq_gt.2 h, Nat.compare_eq_gt.2 ((units_lt_iff y x).2 h)]

/-- Numbers of one sign compare by their magnitudes. -/
theorem worth_compare {x y : Binary64} (same : x.negative = y.negative) :
    compare x.worth y.worth =
      if x.negative then compare y.magnitude x.magnitude else compare x.magnitude y.magnitude := by
  rw [← units_compare, ← units_compare, worth, worth, ← same]
  cases x.negative
  · simp only [Bool.false_eq_true, if_false]
    rcases Nat.lt_trichotomy x.units y.units with h | h | h
    · rw [Nat.compare_eq_lt.2 h, Int.compare_eq_lt.2 (by omega)]
    · rw [Nat.compare_eq_eq.2 h, Int.compare_eq_eq.2 (by omega)]
    · rw [Nat.compare_eq_gt.2 h, Int.compare_eq_gt.2 (by omega)]
  · simp only [if_true]
    rcases Nat.lt_trichotomy y.units x.units with h | h | h
    · rw [Nat.compare_eq_lt.2 h, Int.compare_eq_lt.2 (by omega)]
    · rw [Nat.compare_eq_eq.2 h, Int.compare_eq_eq.2 (by omega)]
    · rw [Nat.compare_eq_gt.2 h, Int.compare_eq_gt.2 (by omega)]

theorem magnitude_lt (x : Binary64) : x.magnitude < signBit := Nat.mod_lt _ (by decide)

end Binary64

/-- The order of two values of one type. Values of different types compare by type. -/
def Value.order : Value → Value → Ordering
  | .bool a, .bool b => compare a b
  | .int a, .int b => compare a.toInt b.toInt
  | .float a, .float b => a.order b
  | .string a, .string b => compare (Utf8.encode a) (Utf8.encode b)
  | .date a, .date b => compare a.millis b.millis
  | .uuid a, .uuid b => compare a.bytes b.bytes
  | .geo a b, .geo c d => (a.order c).then (b.order d)
  | .bytes a, .bytes b => compare a b
  | a, b => compare (Compact.tag a).toNat (Compact.tag b).toNat

/-- A value that is missing comes before every value. -/
def Value.orderMissing : Option Value → Option Value → Ordering
  | none, none => .eq
  | none, some _ => .lt
  | some _, none => .gt
  | some a, some b => a.order b

end GraphStore
