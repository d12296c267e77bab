import GraphStore.Proofs.Bytes.Order

/-!
The forms that records are made of, as forms that keep an order: numbers of a fixed width, numbers in as
few bytes as they need, and escaped byte strings.
-/
namespace GraphStore

theorem ofBigEndian_lt (x : Bytes) : ofBigEndian x < Nat.pow 256 x.length := by
  simp only [Nat.pow_eq]
  induction x with
  | nil => simp [ofBigEndian]
  | cons a x ih =>
    rw [ofBigEndian_cons, Nat.pow_eq, List.length_cons, Nat.pow_succ]
    have top : a.toNat * 256 ^ x.length ≤ 255 * 256 ^ x.length :=
      Nat.mul_le_mul_right _ (by have := a.toNat_lt; omega)
    omega

namespace Bytes

/-- Of two numbers in places, the higher place decides, and then the rest. -/
theorem compare_place {size x y : Nat} (hx : x < size) (hy : y < size) (a b : Nat) :
    compare (a * size + x) (b * size + y) = (compare a b).then (compare x y) := by
  rcases Nat.lt_trichotomy a b with h | h | h
  · have step := Nat.mul_le_mul_right size (Nat.succ_le_of_lt h)
    rw [Nat.succ_mul] at step
    rw [Nat.compare_eq_lt.2 h, Ordering.lt_then, Nat.compare_eq_lt]
    omega
  · simp [h, Nat.compare_eq_ite_lt]
  · have step := Nat.mul_le_mul_right size (Nat.succ_le_of_lt h)
    rw [Nat.succ_mul] at step
    rw [Nat.compare_eq_gt.2 h, Ordering.gt_then, Nat.compare_eq_gt]
    omega

/-- Byte strings of one length sort as the numbers that they are. -/
theorem compare_ofBigEndian {x y : Bytes} (same : x.length = y.length) :
    compare x y = compare (ofBigEndian x) (ofBigEndian y) := by
  induction x generalizing y with
  | nil =>
    obtain rfl : y = [] := List.length_eq_zero_iff.1 same.symm
    rfl
  | cons a x ih =>
    cases y with
    | nil => simp at same
    | cons b y =>
      have same : x.length = y.length := by simpa using same
      have hx := ofBigEndian_lt x
      have hy := ofBigEndian_lt y
      rw [← same] at hy
      rw [compare_cons, ih same, byte_compare, ofBigEndian_cons, ofBigEndian_cons, ← same,
        compare_place hx hy]

theorem compares_bigEndian {width m n : Nat} (hm : m < Nat.pow 256 width)
    (hn : n < Nat.pow 256 width) :
    Compares (bigEndian width m) (bigEndian width n) (compare m n) := by
  have same : (bigEndian width m).length = (bigEndian width n).length := by simp
  have numbers := compare_ofBigEndian same
  rw [ofBigEndian_bigEndian, ofBigEndian_bigEndian, Nat.mod_eq_of_lt hm,
    Nat.mod_eq_of_lt hn] at numbers
  exact numbers ▸ Compares.of_length same

theorem compares_word (m n : UInt64) :
    Compares (bigEndian 8 m.toNat) (bigEndian 8 n.toNat) (compare m.toNat n.toNat) :=
  compares_bigEndian m.toNat_lt n.toNat_lt

theorem significantBytes_le (n : Nat) : significantBytes n ≤ 8 := by
  simp only [significantBytes]
  repeat' split
  all_goals omega

theorem one_le_significantBytes (n : Nat) : 1 ≤ significantBytes n := by
  simp only [significantBytes]
  repeat' split
  all_goals omega

/-- The number of significant bytes is small enough to stand in a byte. -/
theorem toNat_significantBytes (n : Nat) :
    (UInt8.ofNat (significantBytes n)).toNat = significantBytes n := by
  have most := significantBytes_le n
  rw [UInt8.toNat_ofNat']
  omega

theorem lt_of_significantBytes {n : Nat} (h : n < UInt64.size) :
    n < Nat.pow 256 (significantBytes n) := by
  simp only [significantBytes, UInt64.size, Nat.pow_eq] at *
  repeat' split
  all_goals omega

theorem le_of_significantBytes {n : Nat} (more : 1 < significantBytes n) :
    Nat.pow 256 (significantBytes n - 1) ≤ n := by
  revert more
  simp only [significantBytes, Nat.pow_eq]
  repeat' split
  all_goals
    intro more
    simp only [Nat.add_one_sub_one] at *
    omega

/-- A number with fewer significant bytes is smaller. -/
theorem lt_of_significantBytes_lt {m n : Nat} (word : m < UInt64.size)
    (h : significantBytes m < significantBytes n) : m < n := by
  have least := one_le_significantBytes m
  calc
    m < Nat.pow 256 (significantBytes m) := lt_of_significantBytes word
    _ ≤ Nat.pow 256 (significantBytes n - 1) := Nat.pow_le_pow_right (by omega) (by omega)
    _ ≤ n := le_of_significantBytes (by omega)

theorem compares_orderedVarint (m n : UInt64) :
    Compares (orderedVarint m) (orderedVarint n) (compare m.toNat n.toNat) := by
  have widths : compare (UInt8.ofNat (significantBytes m.toNat))
      (UInt8.ofNat (significantBytes n.toNat)) =
      compare (significantBytes m.toNat) (significantBytes n.toNat) := by
    rw [byte_compare, toNat_significantBytes, toNat_significantBytes]
  simp only [orderedVarint]
  rcases Nat.lt_trichotomy (significantBytes m.toNat) (significantBytes n.toNat) with h | h | h
  · rw [Nat.compare_eq_lt.2 h] at widths
    rw [Nat.compare_eq_lt.2 (lt_of_significantBytes_lt m.toNat_lt h), ← widths]
    exact Compares.of_head (fun e => by simp [e, Std.ReflCmp.compare_self] at widths) _ _
  · have digits : Compares (bigEndian (significantBytes n.toNat) m.toNat)
        (bigEndian (significantBytes n.toNat) n.toNat) (compare m.toNat n.toNat) :=
      compares_bigEndian (h ▸ lt_of_significantBytes m.toNat_lt) (lt_of_significantBytes n.toNat_lt)
    rw [h]
    simpa [Std.ReflCmp.compare_self] using digits.cons (a := .ofNat (significantBytes n.toNat))
      (b := .ofNat (significantBytes n.toNat))
  · rw [Nat.compare_eq_gt.2 h] at widths
    rw [Nat.compare_eq_gt.2 (lt_of_significantBytes_lt n.toNat_lt h), ← widths]
    exact Compares.of_head (fun e => by simp [e, Std.ReflCmp.compare_self] at widths) _ _

theorem zero_compare {a : UInt8} (h : a ≠ 0) : compare 0 a = .lt := by
  rw [byte_compare, Nat.compare_eq_lt]
  have : a.toNat ≠ 0 := fun e => h (UInt8.toNat_inj.1 e)
  simp
  omega

theorem compare_zero {a : UInt8} (h : a ≠ 0) : compare a 0 = .gt := by
  have turned : compare a 0 = (compare 0 a).swap := Std.OrientedCmp.eq_swap
  rw [turned, zero_compare h]
  rfl

/-- An escaped zero lies above the end mark and below every other byte. -/
theorem compares_escaped (x y : Bytes) : Compares (escaped x) (escaped y) (compare x y) := by
  induction x generalizing y with
  | nil =>
    cases y with
    | nil => exact Compares.refl _
    | cons b y =>
      by_cases zero : b = 0
      · simpa [escaped, zero, List.compare_nil_cons, zero_compare, Std.ReflCmp.compare_self] using
          (Compares.of_head (a := 0) (b := 1) (by decide) [] (escaped y)).cons (a := 0) (b := 0)
      · simpa [escaped, zero, List.compare_nil_cons, zero_compare zero] using
          Compares.of_head (a := 0) (b := b) (Ne.symm zero) [0] (escaped y)
  | cons a x ih =>
    cases y with
    | nil =>
      by_cases zero : a = 0
      · simpa [escaped, zero, List.compare_cons_nil, compare_zero, Std.ReflCmp.compare_self] using
          (Compares.of_head (a := 1) (b := 0) (by decide) (escaped x) []).cons (a := 0) (b := 0)
      · simpa [escaped, zero, List.compare_cons_nil, compare_zero zero] using
          Compares.of_head (a := a) (b := 0) zero (escaped x) [0]
    | cons b y =>
      by_cases ha : a = 0 <;> by_cases hb : b = 0
      · simpa [escaped, ha, hb, Std.ReflCmp.compare_self] using
          ((ih y).cons (a := 1) (b := 1)).cons (a := 0) (b := 0)
      · simpa [escaped, ha, hb, zero_compare hb] using
          Compares.of_head (a := 0) (b := b) (Ne.symm hb) (1 :: escaped x) (escaped y)
      · simpa [escaped, ha, hb, compare_zero ha] using
          Compares.of_head (a := a) (b := 0) ha (escaped x) (1 :: escaped y)
      · simpa [escaped, ha, hb] using (ih y).cons (a := a) (b := b)

theorem compares_escapedText (s t : String) :
    Compares (escapedText s) (escapedText t) (compare (Utf8.encode s) (Utf8.encode t)) :=
  compares_escaped _ _

end Bytes

end GraphStore
