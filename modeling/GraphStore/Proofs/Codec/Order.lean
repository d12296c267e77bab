import GraphStore.Proofs.Bytes.Forms
import GraphStore.Proofs.Value.Order

/-!
The ordered form sorts as values do. Integers have their sign turned and numbers below zero have every
bit turned, so each becomes a word that sorts as it does; text and bytes are escaped.
-/
namespace GraphStore.Ordered

open Bytes

/-- Turning the top bit moves the upper half of the words below the lower half. -/
theorem toNat_turnTop (w : UInt64) :
    (w ^^^ 0x8000000000000000).toNat =
      if w.toNat < Binary64.signBit then w.toNat + Binary64.signBit
      else w.toNat - Binary64.signBit := by
  have range := w.toNat_lt
  have low := Nat.xor_mod_two_pow (a := w.toNat) (b := 2 ^ 63) (n := 63)
  have high := Nat.xor_div_two_pow (a := w.toNat) (b := 2 ^ 63) (n := 63)
  rw [UInt64.toNat_xor]
  change (w.toNat ^^^ 2 ^ 63) = _
  simp only [Nat.mod_self, Nat.xor_zero, Nat.div_self (Nat.two_pow_pos 63)] at low high
  have top : Binary64.signBit = 2 ^ 63 := rfl
  by_cases small : w.toNat < Binary64.signBit
  · have zero : w.toNat / 2 ^ 63 = 0 := by omega
    rw [zero, Nat.zero_xor] at high
    rw [if_pos small]
    omega
  · have one : w.toNat / 2 ^ 63 = 1 := by omega
    rw [one, Nat.xor_self] at high
    rw [if_neg small]
    omega

theorem toNat_int (i : Int64) :
    ((i.toUInt64 ^^^ 0x8000000000000000).toNat : Int) = i.toInt + Binary64.signBit := by
  have range := i.toUInt64.toNat_lt
  have value : i.toInt = if 2 * i.toUInt64.toNat < 2 ^ 64 then (i.toUInt64.toNat : Int)
      else i.toUInt64.toNat - (2 ^ 64 : Nat) := BitVec.toInt_eq_toNat_cond _
  have top : Binary64.signBit = 2 ^ 63 := rfl
  rw [toNat_turnTop, value]
  by_cases small : i.toUInt64.toNat < Binary64.signBit
  · rw [if_pos small, if_pos (by omega)]
    omega
  · rw [if_neg small, if_neg (by omega)]
    omega

theorem compares_int (i j : Int64) : Compares (int i) (int j) (compare i.toInt j.toInt) := by
  have words := compares_word (i.toUInt64 ^^^ 0x8000000000000000) (j.toUInt64 ^^^ 0x8000000000000000)
  have hi := toNat_int i
  have hj := toNat_int j
  have same : compare i.toInt j.toInt = compare (i.toUInt64 ^^^ 0x8000000000000000).toNat
      (j.toUInt64 ^^^ 0x8000000000000000).toNat := by
    rcases Int.lt_trichotomy i.toInt j.toInt with h | h | h
    · rw [Int.compare_eq_lt.2 h, eq_comm, Nat.compare_eq_lt]
      omega
    · rw [Int.compare_eq_eq.2 h, eq_comm, Nat.compare_eq_eq]
      omega
    · rw [Int.compare_eq_gt.2 h, eq_comm, Nat.compare_eq_gt]
      omega
  rw [same]
  exact words

theorem millis_toInt (t : Timestamp) : (millis t).toInt = t.millis := by
  have range := t.seconds_in_range
  have nanos := t.nanos_lt
  exact Int64.toInt_ofInt_of_le (by simp only [Timestamp.millis]; omega)
    (by simp only [Timestamp.millis]; omega)

/-- Where a float stands among all words: below or above the middle by its sign, at the end if it is
not a number. -/
theorem toNat_floatWord (x : Binary64) : (floatWord x).toNat =
    if x.isNaN then 0xffffffffffffffff
    else if x.negative then Binary64.signBit - 1 - x.magnitude
    else Binary64.signBit + x.magnitude := by
  have bits := x.bits_eq
  have bound := x.magnitude_lt
  by_cases nan : x.isNaN
  · simp [floatWord, nan]
  · by_cases sign : x.negative
    · have top : UInt64.size = 2 * Binary64.signBit := rfl
      simp only [floatWord, nan, sign, if_true, Bool.false_eq_true, if_false, UInt64.toNat_not] at *
      omega
    · simp only [floatWord, nan, sign, Bool.false_eq_true, if_false, toNat_turnTop] at *
      rw [if_pos (by omega)]
      omega

theorem magnitude_lt_of_isNaN {x : Binary64} (h : x.isNaN = false) :
    x.magnitude < Binary64.signBit - 1 := by
  have most : x.magnitude ≤ Binary64.infinite := Nat.le_of_not_lt (of_decide_eq_false h)
  exact Nat.lt_of_le_of_lt most (by decide)

theorem compare_floatWord (x y : Binary64) :
    compare (floatWord x).toNat (floatWord y).toNat = x.order y := by
  have hx := x.magnitude_lt
  have hy := y.magnitude_lt
  have last : 0xffffffffffffffff = 2 * Binary64.signBit - 1 := rfl
  rw [toNat_floatWord, toNat_floatWord, last, Binary64.order]
  cases nx : x.isNaN <;> cases ny : y.isNaN
  · simp only [Bool.false_eq_true, if_false]
    cases sx : x.negative <;> cases sy : y.negative
    · rw [Binary64.worth_compare (sx.trans sy.symm), sx]
      simp [Nat.compare_eq_ite_lt]
    · rw [Nat.compare_eq_gt.2 (by simp; omega), eq_comm, Ordering.then_eq_gt, Int.compare_eq_gt,
        Int.compare_eq_eq, Binary64.worth, Binary64.worth, sx, sy,
        show compare true false = .gt from rfl]
      simp
      omega
    · rw [Nat.compare_eq_lt.2 (by simp; omega), eq_comm, Ordering.then_eq_lt, Int.compare_eq_lt,
        Int.compare_eq_eq, Binary64.worth, Binary64.worth, sx, sy,
        show compare false true = .lt from rfl]
      simp
      omega
    · rw [Binary64.worth_compare (sx.trans sy.symm), sx]
      simp only [if_true, Nat.compare_eq_ite_lt, Std.ReflCmp.compare_self, Ordering.then_eq]
      grind
  · have := magnitude_lt_of_isNaN nx
    simp only [Bool.false_eq_true, if_false, if_true, Nat.compare_eq_lt]
    split <;> omega
  · have := magnitude_lt_of_isNaN ny
    simp only [Bool.false_eq_true, if_false, if_true, Nat.compare_eq_gt]
    split <;> omega
  · simp

theorem compares_float (x y : Binary64) : Compares (float x) (float y) (x.order y) :=
  compare_floatWord x y ▸ compares_word (floatWord x) (floatWord y)

/-- The ordered forms of two values of one type compare as the values, whatever follows them. -/
theorem compares_write {a b : Value} (same : a.dataType = b.dataType) :
    Compares (write a) (write b) (a.order b) := by
  cases a <;> cases b <;> simp only [Value.dataType, reduceCtorEq] at same
  case bool.bool a b =>
    cases a <;> cases b
    · exact Compares.refl _
    · exact Compares.of_head (by decide) _ _
    · exact Compares.of_head (by decide) _ _
    · exact Compares.refl _
  case int.int i j => exact compares_int i j
  case float.float x y => exact compares_float x y
  case string.string s t => exact compares_escapedText s t
  case date.date s t =>
    have compared := compares_int (millis s) (millis t)
    rw [millis_toInt, millis_toInt] at compared
    exact compared
  case uuid.uuid u v => exact Compares.of_length (u.length_eq.trans v.length_eq.symm)
  case geo.geo a b c d => exact (compares_float a c).append (compares_float b d)
  case bytes.bytes x y => exact compares_escaped x y

end GraphStore.Ordered
