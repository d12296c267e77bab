import GraphStore.Decimal.Shortest
import GraphStore.Proofs.Value.Order
import Mathlib.Algebra.Order.Field.Power
import Mathlib.Data.List.TakeWhile
import Mathlib.Tactic.FieldSimp
import Mathlib.Tactic.Linarith
import Mathlib.Tactic.NormNum
import Mathlib.Tactic.Positivity
import Mathlib.Tactic.Ring

/-!
What the shortest digits of a float are worth. The numbers that round to a float are those between two cuts, and
the upper cut of a float is the lower cut of the next one: it belongs to whichever of the two has an even
mantissa, so no number rounds to both. Seventeen digits are close enough together that some number of so many
lies between the cuts, so the search for the shortest ones ends with digits that read back.
-/
namespace GraphStore.Decimal

theorem pow_eq_div {b : ℕ} (pos : 0 < b) (p : ℤ) :
    (b : ℚ) ^ p = ((b ^ p.toNat : ℕ) : ℚ) / ((b ^ (-p).toNat : ℕ) : ℚ) := by
  have base : (b : ℚ) ≠ 0 := Nat.cast_ne_zero.2 pos.ne'
  rw [Nat.cast_pow, Nat.cast_pow, ← zpow_natCast, ← zpow_natCast, ← zpow_sub₀ base, Int.toNat_sub_toNat_neg]

namespace Interval

variable {i : Interval} {d a : ℕ} {p : ℤ} {r : ℚ}

def lower (i : Interval) : ℚ := i.low / i.den

def exact (i : Interval) : ℚ := i.value / i.den

def upper (i : Interval) : ℚ := i.high / i.den

/-- A number lies in the interval, its ends included if it is closed. -/
def Takes (i : Interval) (r : ℚ) : Prop :=
  if i.closed then i.lower ≤ r ∧ r ≤ i.upper else i.lower < r ∧ r < i.upper

theorem Takes.bounds (takes : i.Takes r) : i.lower ≤ r ∧ r ≤ i.upper := by
  rw [Takes] at takes
  split at takes
  · exact takes
  · exact ⟨takes.1.le, takes.2.le⟩

theorem takes_of_lt (above : i.lower < r) (below : r < i.upper) : i.Takes r := by
  rw [Takes]
  split
  · exact ⟨above.le, below.le⟩
  · exact ⟨above, below⟩

/-- Only a closed interval takes one of its ends. -/
theorem Takes.closed_of_eq (takes : i.Takes r) (edge : r = i.lower ∨ r = i.upper) : i.closed = true := by
  rw [Takes] at takes
  split at takes
  · assumption
  · rcases edge with rfl | rfl
    · exact absurd takes.1 (lt_irrefl _)
    · exact absurd takes.2 (lt_irrefl _)

section Grid

variable (pos : 0 < i.den)
include pos

theorem ratio_le_grid_iff (a d : ℕ) (p : ℤ) :
    (a : ℚ) / i.den ≤ d * 10 ^ p ↔ a * 10 ^ (-p).toNat ≤ d * 10 ^ p.toNat * i.den := by
  have power := pow_eq_div (b := 10) (by decide) p
  have den : (0 : ℚ) < i.den := Nat.cast_pos.2 pos
  have below : (0 : ℚ) < ((10 ^ (-p).toNat : ℕ) : ℚ) := Nat.cast_pos.2 (Nat.pow_pos (by decide))
  rw [Nat.cast_ofNat] at power
  rw [power, mul_div, div_le_div_iff₀ den below]
  exact_mod_cast Iff.rfl

theorem grid_le_ratio_iff (a d : ℕ) (p : ℤ) :
    d * 10 ^ p ≤ (a : ℚ) / i.den ↔ d * 10 ^ p.toNat * i.den ≤ a * 10 ^ (-p).toNat := by
  have power := pow_eq_div (b := 10) (by decide) p
  have den : (0 : ℚ) < i.den := Nat.cast_pos.2 pos
  have below : (0 : ℚ) < ((10 ^ (-p).toNat : ℕ) : ℚ) := Nat.cast_pos.2 (Nat.pow_pos (by decide))
  rw [Nat.cast_ofNat] at power
  rw [power, mul_div, div_le_div_iff₀ below den]
  exact_mod_cast Iff.rfl

theorem holds_iff : i.holds d p = true ↔ i.Takes (d * 10 ^ p) := by
  have scaled : i.holds d p = if i.closed then
      decide (i.low * 10 ^ (-p).toNat ≤ d * 10 ^ p.toNat * i.den) &&
        decide (d * 10 ^ p.toNat * i.den ≤ i.high * 10 ^ (-p).toNat)
      else decide (i.low * 10 ^ (-p).toNat < d * 10 ^ p.toNat * i.den) &&
        decide (d * 10 ^ p.toNat * i.den < i.high * 10 ^ (-p).toNat) := by
    rw [holds]
    by_cases whole : 0 ≤ p
    · simp [whole, Int.toNat_eq_zero.2 (Int.neg_nonpos_of_nonneg whole)]
    · simp [whole, Int.toNat_eq_zero.2 (Int.le_of_not_le whole)]
  rw [scaled, Takes, lower, upper]
  split
  · rw [Bool.and_eq_true, decide_eq_true_iff, decide_eq_true_iff, ratio_le_grid_iff pos, grid_le_ratio_iff pos]
  · rw [Bool.and_eq_true, decide_eq_true_iff, decide_eq_true_iff, ← not_le, ← not_le, ← not_le, ← not_le,
      ratio_le_grid_iff pos, grid_le_ratio_iff pos]

/-- Where neither neighbour of the value reads back, both are named. -/
theorem onGrid_eq_none {toEven : Bool} (none : i.onGrid toEven p = none) :
    ∃ d : ℕ, d * (10 : ℚ) ^ p ≤ i.exact ∧ i.exact < (d + 1 : ℕ) * 10 ^ p ∧
      ¬(i.holds d p = true ∧ 0 < d) ∧ ¬i.holds (d + 1) p = true := by
  have num : (if 0 ≤ p then i.value else i.value * Nat.pow 10 (-p).toNat) = i.value * 10 ^ (-p).toNat := by
    by_cases whole : 0 ≤ p
    · simp [whole, Int.toNat_eq_zero.2 (Int.neg_nonpos_of_nonneg whole)]
    · simp [whole]
  have den : (if 0 ≤ p then i.den * Nat.pow 10 p.toNat else i.den) = i.den * 10 ^ p.toNat := by
    by_cases whole : 0 ≤ p
    · simp [whole]
    · simp [whole, Int.toNat_eq_zero.2 (Int.le_of_not_le whole)]
  have some : 0 < i.den * 10 ^ p.toNat := Nat.mul_pos pos (Nat.pow_pos (by decide))
  simp only [onGrid, num, den] at none
  refine ⟨i.value * 10 ^ (-p).toNat / (i.den * 10 ^ p.toNat), ?_, ?_, ?_⟩
  · rw [exact, grid_le_ratio_iff pos, mul_assoc, mul_comm (10 ^ p.toNat)]
    exact Nat.div_mul_le_self ..
  · rw [exact, ← not_le, grid_le_ratio_iff pos, mul_assoc, mul_comm (10 ^ p.toNat), Nat.not_le, Nat.mul_comm (_ + 1)]
    exact Nat.lt_mul_div_succ _ some
  · split at none
    · split at none <;> cases none
    · cases none
    · cases none
    · next left right => simpa [right] using left

end Grid

/-- What is found on a grid reads back. -/
theorem onGrid_eq_some {toEven : Bool} (found : i.onGrid toEven p = some d) : i.holds d p = true ∧ 0 < d := by
  unfold onGrid at found
  extract_lets num den q r at found
  split at found
  · next left right =>
    obtain ⟨reads, some⟩ := Bool.and_eq_true_iff.1 left
    split at found <;> obtain rfl := Option.some.inj found
    · exact ⟨reads, of_decide_eq_true some⟩
    · exact ⟨right, Nat.succ_pos _⟩
  · next left _ =>
    obtain rfl := Option.some.inj found
    obtain ⟨reads, some⟩ := Bool.and_eq_true_iff.1 left
    exact ⟨reads, of_decide_eq_true some⟩
  · next right =>
    obtain rfl := Option.some.inj found
    exact ⟨right, Nat.succ_pos _⟩
  · cases found

/-- A grid has a number that reads back if it is finer than the interval is wide. -/
theorem onGrid_isSome (pos : 0 < i.den) (above : i.lower < i.exact) (below : i.exact < i.upper)
    (fine : (10 : ℚ) ^ p < i.upper - i.lower) (large : (10 : ℚ) ^ p ≤ i.exact) (toEven : Bool) :
    ∃ d, i.onGrid toEven p = some d := by
  rw [← Option.ne_none_iff_exists']
  intro none
  obtain ⟨d, beneath, beyond, left, right⟩ := onGrid_eq_none pos none
  have step : (0 : ℚ) < 10 ^ p := by positivity
  have next : ((d + 1 : ℕ) : ℚ) * 10 ^ p = d * 10 ^ p + 10 ^ p := by push_cast; ring
  -- if both neighbours lay outside, the step between them would span the interval
  have some : 0 < d := by
    refine Nat.pos_of_ne_zero ?_
    rintro rfl
    rw [next, Nat.cast_zero, zero_mul, zero_add] at beyond
    exact absurd large (not_le.2 beyond)
  have low : d * (10 : ℚ) ^ p ≤ i.lower := by
    refine not_lt.1 fun inside => left ⟨(holds_iff pos).2 ?_, some⟩
    exact takes_of_lt inside (beneath.trans_lt below)
  have high : i.upper ≤ (d + 1 : ℕ) * (10 : ℚ) ^ p := by
    refine not_lt.1 fun inside => right ((holds_iff pos).2 ?_)
    exact takes_of_lt (above.trans beyond) inside
  rw [next] at high
  linarith

end Interval

/-- The place of the point is right: the digit before it is not zero. -/
theorem pointOf_le {num den : ℕ} (some : 0 < num) (pos : 0 < den) :
    (10 : ℚ) ^ (pointOf num den - 1) ≤ (num : ℚ) / den := by
  have den' : (0 : ℚ) < den := Nat.cast_pos.2 pos
  have small {k : ℕ} (enough : den ≤ num * 10 ^ k) : (10 : ℚ) ^ (-(k : ℤ)) ≤ (num : ℚ) / den := by
    rw [zpow_neg, zpow_natCast, inv_eq_one_div, div_le_div_iff₀ (by positivity) den', one_mul]
    exact_mod_cast enough
  rw [pointOf]
  split
  · next large =>
    obtain ⟨k, length⟩ := Nat.exists_eq_succ_of_ne_zero (Nat.length_toDigits_pos (b := 10) (n := num / den)).ne'
    have digits : 10 ^ k ≤ num / den := by
      cases k with
      | zero => exact Nat.div_pos large pos
      | succ k =>
        refine Nat.not_lt.1 fun less => ?_
        have short := (Nat.length_toDigits_le_iff (by decide) (Nat.succ_pos k)).2 less
        omega
    rw [length, Nat.cast_succ, add_sub_cancel_right, zpow_natCast, le_div_iff₀ den']
    exact_mod_cast (Nat.mul_le_mul_right den digits).trans (Nat.div_mul_le_self num den)
  · obtain ⟨k, length⟩ := Nat.exists_eq_succ_of_ne_zero (Nat.length_toDigits_pos (b := 10) (n := den / num)).ne'
    have most : den < num * 10 ^ (k + 1) := by
      have short := (Nat.length_toDigits_le_iff (b := 10) (by decide) (Nat.succ_pos k)).1 length.le
      exact (Nat.div_lt_iff_lt_mul some).1 short |>.trans_eq (Nat.mul_comm _ _)
    simp only [length, Nat.succ_sub_one, Nat.pow_eq]
    split
    · next enough =>
      rw [show (2 : ℤ) - (k.succ : ℕ) - 1 = -(k : ℤ) by push_cast; ring]
      exact small enough
    · rw [show (1 : ℤ) - (k.succ : ℕ) - 1 = -((k + 1 : ℕ) : ℤ) by push_cast; ring]
      exact small most.le

/-- The digits of a number that is not zero, from the first. -/
def digitsOf (d : ℕ) : List ℕ := (Nat.toDigits 10 d).map fun c => c.toNat - 48

/-- What digits are worth. -/
def Digits.worth (d : Digits) : ℚ :=
  (Nat.ofDigitChars 10 (d.digits.map Nat.digitChar) 0 : ℕ) * 10 ^ (d.point - d.digits.length)

theorem map_digitChar_digitsOf (d : ℕ) : (digitsOf d).map Nat.digitChar = Nat.toDigits 10 d := by
  rw [digitsOf, List.map_map]
  refine (List.map_congr_left fun c member => ?_).trans (List.map_id _)
  have digit := Nat.isDigit_of_mem_toDigits (by decide) (by decide) member
  obtain ⟨least, most⟩ := Bool.and_eq_true_iff.1 digit
  have least : 48 ≤ c.toNat := UInt32.le_iff_toNat_le.1 (of_decide_eq_true least)
  have most : c.toNat ≤ 57 := UInt32.le_iff_toNat_le.1 (of_decide_eq_true most)
  have small : c.toNat - 48 < 10 := by omega
  exact Char.toNat_inj.1 ((Nat.toNat_digitChar_of_lt_ten small).trans (Nat.add_sub_of_le least))

theorem trim_append (ds : List ℕ) : ∃ n, ds = trim ds ++ List.replicate n 0 := by
  refine ⟨(ds.reverse.takeWhile (· = 0)).length, ?_⟩
  have zeros : ds.reverse.takeWhile (· = 0) = List.replicate (ds.reverse.takeWhile (· = 0)).length 0 :=
    List.eq_replicate_of_mem fun n member => by simpa using List.mem_takeWhile_imp member
  rw [trim, ← List.reverse_replicate, ← zeros, ← List.reverse_append, List.takeWhile_append_dropWhile,
    List.reverse_reverse]

/-- Zeros at the end add nothing. -/
theorem worth_trim (d : ℕ) (p : ℤ) :
    (⟨trim (digitsOf d), p + (digitsOf d).length⟩ : Digits).worth = d * 10 ^ p := by
  obtain ⟨n, split⟩ := trim_append (digitsOf d)
  have read : d = 10 ^ n * Nat.ofDigitChars 10 ((trim (digitsOf d)).map Nat.digitChar) 0 := by
    calc d = Nat.ofDigitChars 10 ((digitsOf d).map Nat.digitChar) 0 := by
          rw [map_digitChar_digitsOf, Nat.ofDigitChars_ten_toDigits]
      _ = _ := by
          conv_lhs => rw [split, List.map_append, List.map_replicate, Nat.ofDigitChars_append]
          exact Nat.ofDigitChars_replicate_zero
  have length : (digitsOf d).length = (trim (digitsOf d)).length + n := by
    simpa using congrArg List.length split
  rw [Digits.worth, length]
  conv_rhs => rw [read]
  rw [show p + (((trim (digitsOf d)).length + n : ℕ) : ℤ) - (trim (digitsOf d)).length = n + p by push_cast; ring,
    zpow_add₀ (by norm_num), zpow_natCast]
  push_cast
  ring

theorem Interval.search_found {i : Interval} {toEven : Bool} {point : ℤ} {n : ℕ}
    (found : ∃ d, i.onGrid toEven (point - n) = some d) (fuel k : ℕ) (first : k ≤ n) (last : n < k + fuel) :
    ∃ d p, i.holds d p = true ∧ 0 < d ∧
      i.search toEven point fuel k = ⟨trim (digitsOf d), p + (digitsOf d).length⟩ := by
  induction fuel generalizing k with
  | zero => omega
  | succ fuel ih =>
    rw [search]
    cases here : i.onGrid toEven (point - k) with
    | some d =>
      obtain ⟨reads, some⟩ := onGrid_eq_some here
      exact ⟨d, point - k, reads, some, rfl⟩
    | none =>
      have later : k ≠ n := by
        rintro rfl
        obtain ⟨d, there⟩ := found
        cases here.symm.trans there
      exact ih _ (by omega) (by omega)

/-- The whole number of the mantissa, from the exponent field and the fraction. -/
def mantissaOf (exponent fraction : ℕ) : ℕ := if exponent = 0 then fraction else Binary64.hiddenBit + fraction

/-- The cut below a magnitude, in quarters of the least positive number. It is nearer where the exponent starts. -/
def cutBelow (magnitude : ℕ) : ℕ :=
  let e := magnitude / Binary64.hiddenBit
  let f := magnitude % Binary64.hiddenBit
  (if f = 0 ∧ 1 < e then 4 * mantissaOf e f - 1 else 4 * mantissaOf e f - 2) * 2 ^ (e - 1)

def cutAbove (magnitude : ℕ) : ℕ :=
  let e := magnitude / Binary64.hiddenBit
  let f := magnitude % Binary64.hiddenBit
  (4 * mantissaOf e f + 2) * 2 ^ (e - 1)

theorem cutBelow_lt_cutAbove (m : ℕ) : cutBelow m < cutAbove m := by
  refine Nat.mul_lt_mul_of_pos_right ?_ (Nat.two_pow_pos _)
  split <;> omega

/-- The cut above a magnitude is the one below the next magnitude, also across the exponents. -/
theorem cutAbove_eq_cutBelow_succ (m : ℕ) : cutAbove m = cutBelow (m + 1) := by
  open Binary64 in
  by_cases last : m % hiddenBit = hiddenBit - 1
  · have next : (m + 1) / hiddenBit = m / hiddenBit + 1 := by simp only [hiddenBit] at *; omega
    have start : (m + 1) % hiddenBit = 0 := by simp only [hiddenBit] at *; omega
    simp only [cutAbove, cutBelow, next, start, last, mantissaOf]
    cases m / hiddenBit with
    | zero => decide
    | succ e =>
      have more : (4 * (hiddenBit + (hiddenBit - 1)) + 2) = (4 * hiddenBit - 1) * 2 := by decide
      simp only [Nat.add_one_ne_zero, if_false, Nat.add_sub_cancel, Nat.lt_add_left_iff_pos, Nat.succ_pos, and_self,
        if_true, more, Nat.pow_succ, Nat.add_zero]
      ring
  · have next : (m + 1) / hiddenBit = m / hiddenBit := by simp only [hiddenBit] at *; omega
    have more : (m + 1) % hiddenBit = m % hiddenBit + 1 := by simp only [hiddenBit] at *; omega
    simp only [cutAbove, cutBelow, next, more, mantissaOf, Nat.add_one_ne_zero, false_and, if_false]
    congr 1
    split <;> omega

theorem cutBelow_strictMono : StrictMono cutBelow := strictMono_nat_of_lt_succ fun m => by
  rw [← cutAbove_eq_cutBelow_succ]
  exact cutBelow_lt_cutAbove m

section Floats

open Binary64

variable {x y : Binary64}

/-- A quarter of a unit of the mantissa. -/
def quarter (x : Binary64) : ℚ := 2 ^ (x.power - 2)

theorem quarter_pos (x : Binary64) : 0 < quarter x := by
  rw [quarter]
  positivity

theorem quarter_eq (x : Binary64) : quarter x = (2 ^ (x.exponentField - 1) : ℕ) / 2 ^ 1076 := by
  have power : x.power - 2 = (x.exponentField - 1 : ℕ) - (1076 : ℕ) := by
    rw [Binary64.power]
    split <;> omega
  rw [quarter, power, zpow_sub₀ (by norm_num), zpow_natCast, zpow_natCast, Nat.cast_pow, Nat.cast_ofNat]

theorem interval_den_pos (x : Binary64) : 0 < (interval x).den := by
  rw [interval]
  dsimp only
  split
  · exact Nat.one_pos
  · exact Nat.two_pow_pos _

/-- The parts of an interval count quarters. -/
theorem interval_parts (x : Binary64) :
    (interval x).lower = (if x.fraction = 0 ∧ 1 < x.exponentField then 4 * x.mantissa - 1
      else 4 * x.mantissa - 2 : ℕ) * quarter x ∧
    (interval x).exact = (4 * x.mantissa : ℕ) * quarter x ∧
    (interval x).upper = (4 * x.mantissa + 2 : ℕ) * quarter x := by
  have power := pow_eq_div (b := 2) (by decide) (x.power - 2)
  have up : (if 0 ≤ x.power - 2 then Nat.pow 2 (x.power - 2).toNat else 1) = 2 ^ (x.power - 2).toNat := by
    split
    · rfl
    · next below => rw [Int.toNat_eq_zero.2 (Int.le_of_not_le below), pow_zero]
  have den : (if 0 ≤ x.power - 2 then 1 else Nat.pow 2 (-(x.power - 2)).toNat) = 2 ^ (-(x.power - 2)).toNat := by
    split
    · next whole => rw [Int.toNat_eq_zero.2 (Int.neg_nonpos_of_nonneg whole), pow_zero]
    · rfl
  rw [Nat.cast_ofNat] at power
  simp only [Interval.lower, Interval.exact, Interval.upper, interval, up, den, quarter, power, Nat.cast_mul,
    mul_div, and_self]

theorem mantissa_pos (nonzero : x.isZero = false) : 0 < x.mantissa := by
  have some : x.magnitude ≠ 0 := of_decide_eq_false nonzero
  rw [mantissa, exponentField, fraction]
  split <;> simp only [hiddenBit] at * <;> omega

theorem mantissa_lt (x : Binary64) : x.mantissa < 2 * hiddenBit := by
  rw [mantissa, fraction]
  simp only [hiddenBit]
  split <;> omega

theorem interval_inside (nonzero : x.isZero = false) :
    (interval x).lower < (interval x).exact ∧ (interval x).exact < (interval x).upper := by
  obtain ⟨lower, exact, upper⟩ := interval_parts x
  have some := mantissa_pos nonzero
  rw [lower, exact, upper]
  constructor
  · refine mul_lt_mul_of_pos_right (Nat.cast_lt.2 ?_) (quarter_pos x)
    split <;> omega
  · exact mul_lt_mul_of_pos_right (Nat.cast_lt.2 (by omega)) (quarter_pos x)

/-- An interval is wide enough for numbers of seventeen digits. -/
theorem interval_wide (nonzero : x.isZero = false) :
    (interval x).exact < 10 ^ 16 * ((interval x).upper - (interval x).lower) := by
  obtain ⟨lower, exact, upper⟩ := interval_parts x
  have some := mantissa_pos nonzero
  have most := mantissa_lt x
  rw [lower, exact, upper, ← sub_mul, ← mul_assoc]
  refine mul_lt_mul_of_pos_right ?_ (quarter_pos x)
  simp only [hiddenBit] at most
  -- where an exponent starts the interval has three quarters and not four, but there the mantissa is the least
  split
  · next start =>
    have least : x.mantissa = hiddenBit := by rw [mantissa, start.1, if_neg (by omega)]; rfl
    rw [least]
    norm_num [hiddenBit]
  · have width : ((4 * x.mantissa + 2 : ℕ) : ℚ) - (4 * x.mantissa - 2 : ℕ) = 4 := by
      rw [Nat.cast_sub (by omega)]
      push_cast
      ring
    rw [width]
    exact_mod_cast show 4 * x.mantissa < 10 ^ 16 * 4 by omega

/-- The shortest digits read back, and are not those of zero. -/
theorem shortest_takes (toEven : Bool) (nonzero : x.isZero = false) :
    (interval x).Takes (shortest toEven x).worth ∧ 0 < (shortest toEven x).worth := by
  have pos := interval_den_pos x
  obtain ⟨above, below⟩ := interval_inside nonzero
  have wide := interval_wide nonzero
  have some : 0 < (interval x).value := by
    rw [interval]
    refine Nat.mul_pos (Nat.mul_pos (by decide) (mantissa_pos nonzero)) ?_
    split
    · exact Nat.two_pow_pos _
    · exact Nat.one_pos
  have leads := pointOf_le some pos
  have large : (10 : ℚ) ^ (pointOf (interval x).value (interval x).den - (17 : ℕ)) * 10 ^ 16 ≤
      (interval x).exact := by
    rw [← zpow_natCast, ← zpow_add₀ (by norm_num)]
    refine le_of_eq_of_le ?_ leads
    congr 1
    push_cast
    ring
  have step : (0 : ℚ) < 10 ^ (pointOf (interval x).value (interval x).den - (17 : ℕ)) := by positivity
  obtain ⟨d, p, reads, positive, result⟩ := Interval.search_found
    (Interval.onGrid_isSome pos above below (by linarith) (by linarith) toEven) 17 1
    (by decide) (by decide)
  rw [shortest, result, worth_trim]
  exact ⟨(Interval.holds_iff pos).1 reads, mul_pos (Nat.cast_pos.2 positive) (by positivity)⟩

theorem interval_cuts (x : Binary64) : (interval x).lower = (cutBelow x.magnitude : ℚ) / 2 ^ 1076 ∧
    (interval x).upper = (cutAbove x.magnitude : ℚ) / 2 ^ 1076 := by
  obtain ⟨lower, -, upper⟩ := interval_parts x
  rw [lower, upper, quarter_eq, mul_div, mul_div, ← Nat.cast_mul, ← Nat.cast_mul]
  exact ⟨rfl, rfl⟩

theorem interval_closed (x : Binary64) : (interval x).closed = decide (x.magnitude % 2 = 0) := by
  have parity : x.mantissa % 2 = x.magnitude % 2 := by
    rw [mantissa, fraction]
    simp only [hiddenBit]
    split <;> omega
  rw [interval, parity]

/-- No number rounds to two magnitudes. -/
theorem takes_unique {r : ℚ} (left : (interval x).Takes r) (right : (interval y).Takes r) :
    x.magnitude = y.magnitude := by
  wlog less : x.magnitude < y.magnitude generalizing x y
  · rcases Nat.lt_or_eq_of_le (Nat.le_of_not_lt less) with more | same
    · exact (this right left more).symm
    · exact same.symm
  have scale : (0 : ℚ) < 2 ^ 1076 := by positivity
  have upper := left.bounds.2
  have lower := right.bounds.1
  have meet : cutAbove x.magnitude ≤ cutBelow y.magnitude := by
    rw [cutAbove_eq_cutBelow_succ]
    exact cutBelow_strictMono.monotone less
  have apart : (interval x).upper ≤ (interval y).lower := by
    rw [(interval_cuts x).2, (interval_cuts y).1]
    exact div_le_div_of_nonneg_right (Nat.cast_le.2 meet) scale.le
  -- a number in both is a cut that two neighbours share, and only one of them has an even mantissa
  have cut : (interval x).upper = (interval y).lower := le_antisymm apart (lower.trans upper)
  have next : x.magnitude + 1 = y.magnitude := by
    rw [(interval_cuts x).2, (interval_cuts y).1, div_left_inj' scale.ne', Nat.cast_inj,
      cutAbove_eq_cutBelow_succ] at cut
    exact cutBelow_strictMono.injective cut
  have even := left.closed_of_eq (.inr (le_antisymm upper (apart.trans lower)))
  have even' := right.closed_of_eq (.inl (le_antisymm (upper.trans apart) lower))
  rw [interval_closed, decide_eq_true_iff] at even even'
  omega

end Floats

end GraphStore.Decimal
