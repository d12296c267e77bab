import GraphStore.Decimal.Notation
import GraphStore.Proofs.Decimal.Shortest

/-!
Floats as plain texts. Read around its point, a text is worth what its digits are, and these round to no other
float. So two finite floats are written alike only if they are one, the sign of a zero included.
-/
namespace GraphStore.Decimal

/-- What a text without a sign is worth. -/
def readPlain (cs : List Char) : ℚ :=
  let whole := cs.takeWhile (· ≠ '.')
  let rest := cs.drop (whole.length + 1)
  (Nat.ofDigitChars 10 (whole ++ rest) 0 : ℕ) / 10 ^ rest.length

theorem readPlain_whole {cs : List Char} (none : '.' ∉ cs) : readPlain cs = (Nat.ofDigitChars 10 cs 0 : ℕ) := by
  have all : cs.takeWhile (· ≠ '.') = cs :=
    List.takeWhile_eq_self_iff.2 fun c member => decide_eq_true fun same => none (same ▸ member)
  simp only [readPlain, all, List.drop_eq_nil_of_le (Nat.le_succ cs.length), List.append_nil, List.length_nil,
    pow_zero, div_one]

theorem readPlain_point {whole : List Char} (rest : List Char) (none : '.' ∉ whole) :
    readPlain (whole ++ '.' :: rest) = (Nat.ofDigitChars 10 (whole ++ rest) 0 : ℕ) / 10 ^ rest.length := by
  have front : (whole ++ '.' :: rest).takeWhile (· ≠ '.') = whole := by
    have before : ∀ c ∈ whole, decide (c ≠ '.') = true :=
      fun c member => decide_eq_true fun same => none (same ▸ member)
    rw [List.takeWhile_append_of_pos before, List.takeWhile_cons_of_neg (by decide), List.append_nil]
  have back : (whole ++ '.' :: rest).drop (whole.length + 1) = rest := by
    rw [← List.drop_drop, List.drop_left, List.drop_succ_cons, List.drop_zero]
  simp only [readPlain, front, back]

theorem not_mem_digits {c : Char} (none : ∀ n, Nat.digitChar n ≠ c) (ds : List ℕ) : c ∉ ds.map Nat.digitChar := by
  rintro member
  obtain ⟨n, -, same⟩ := List.mem_map.1 member
  exact none n same

theorem not_mem_zeros {c : Char} (other : c ≠ '0') (n : ℕ) : c ∉ List.replicate n '0' :=
  fun member => other (List.eq_of_mem_replicate member)

/-- The characters of a text by the place of its point: behind the digits, among them or before them. -/
theorem positional_toList (d : Digits) : (positional "" d).toList =
    if (d.digits.length : ℤ) ≤ d.point then
      d.digits.map Nat.digitChar ++ List.replicate (d.point - d.digits.length).toNat '0'
    else if 0 < d.point then
      (d.digits.take d.point.toNat).map Nat.digitChar ++ '.' :: (d.digits.drop d.point.toNat).map Nat.digitChar
    else ['0'] ++ '.' :: (List.replicate (-d.point).toNat '0' ++ d.digits.map Nat.digitChar) := by
  simp only [positional, digitText, zeros]
  split
  · simp
  · split <;> simp

theorem readPlain_positional (d : Digits) : readPlain (positional "" d).toList = d.worth := by
  have point (ds : List ℕ) : '.' ∉ ds.map Nat.digitChar := not_mem_digits (fun _ => Nat.digitChar_ne '.' rfl) ds
  rw [positional_toList, Digits.worth]
  split
  · next behind =>
    have none : '.' ∉ d.digits.map Nat.digitChar ++ List.replicate (d.point - d.digits.length).toNat '0' := by
      rw [List.mem_append, not_or]
      exact ⟨point _, not_mem_zeros (by decide) _⟩
    rw [readPlain_whole none, Nat.ofDigitChars_append, Nat.ofDigitChars_replicate_zero, mul_comm, Nat.cast_mul,
      Nat.cast_pow, Nat.cast_ofNat, ← zpow_natCast, Int.toNat_of_nonneg (sub_nonneg.2 behind)]
  · next fewer =>
    split
    · next among =>
      have length : ((d.digits.drop d.point.toNat).length : ℤ) = d.digits.length - d.point := by
        rw [List.length_drop]
        omega
      rw [readPlain_point _ (point _), ← List.map_append, List.take_append_drop, List.length_map, div_eq_mul_inv,
        ← zpow_natCast, ← zpow_neg, length, neg_sub]
    · next before =>
      have length : ((List.replicate (-d.point).toNat '0' ++ d.digits.map Nat.digitChar).length : ℤ) =
          d.digits.length - d.point := by
        rw [List.length_append, List.length_replicate, List.length_map]
        omega
      have digits : Nat.ofDigitChars 10
          (['0'] ++ (List.replicate (-d.point).toNat '0' ++ d.digits.map Nat.digitChar)) 0 =
            Nat.ofDigitChars 10 (d.digits.map Nat.digitChar) 0 := by
        rw [← List.append_assoc, Nat.ofDigitChars_append, Nat.ofDigitChars_append, Nat.ofDigitChars_replicate_zero]
        rfl
      rw [readPlain_point _ (by decide), digits, div_eq_mul_inv, ← zpow_natCast, ← zpow_neg, length, neg_sub]

/-- A plain text of a finite float without its sign. -/
def unsigned (x : Binary64) : String := if x.isZero then "0" else positional "" (shortest false x)

section Floats

variable {x y : Binary64}

theorem plain_text_toList (finite : x.isFinite = true) : (plain.text x).toList =
    (if x.negative then ['-'] else []) ++ (unsigned x).toList := by
  have number : x.isNaN = false := by
    simp only [Binary64.isFinite, decide_eq_true_eq] at finite
    simp [Binary64.isNaN, Nat.le_of_lt finite]
  have always (point : ℤ) : plain.isPositional point = true := rfl
  have style : plain.wholeEnd = "" ∧ plain.toEven = false := ⟨rfl, rfl⟩
  simp only [Style.text, number, finite, always, style, unsigned, Bool.false_eq_true, Bool.not_true, if_true,
    if_false]
  split <;> split <;> simp

theorem minus_not_mem (x : Binary64) : '-' ∉ (unsigned x).toList := by
  have minus (ds : List ℕ) : '-' ∉ ds.map Nat.digitChar := not_mem_digits (fun _ => Nat.digitChar_ne '-' rfl) ds
  have zeros := fun n => not_mem_zeros (c := '-') (by decide) n
  rw [unsigned]
  split
  · decide
  · rw [positional_toList]
    split
    · simp [minus, zeros]
    · split <;> simp only [List.mem_append, List.mem_cons, minus, zeros, List.not_mem_nil, or_self,
        not_false_eq_true, Char.reduceEq]

/-- A text without its sign is worth nothing, or a number that rounds to the float. -/
theorem readPlain_unsigned (x : Binary64) : if x.isZero then readPlain (unsigned x).toList = 0 else
    (interval x).Takes (readPlain (unsigned x).toList) ∧ 0 < readPlain (unsigned x).toList := by
  rw [unsigned]
  split
  · exact (readPlain_whole (by decide)).trans (Nat.cast_eq_zero.2 rfl)
  · next nonzero =>
    rw [readPlain_positional]
    exact shortest_takes false (Bool.eq_false_of_not_eq_true nonzero)

theorem magnitude_eq_of_unsigned (same : unsigned x = unsigned y) : x.magnitude = y.magnitude := by
  have left := readPlain_unsigned x
  have right := readPlain_unsigned y
  rw [same] at left
  split at left <;> split at right
  · next zero zero' => exact (of_decide_eq_true zero).trans (of_decide_eq_true zero').symm
  · exact absurd right.2 (by rw [left]; exact lt_irrefl 0)
  · exact absurd left.2 (by rw [right]; exact lt_irrefl 0)
  · exact takes_unique left.1 right.1

/-- Finite floats that are written alike are one. -/
theorem plain_text_inj (left : x.isFinite = true) (right : y.isFinite = true)
    (same : plain.text x = plain.text y) : x = y := by
  have chars := congrArg String.toList same
  rw [plain_text_toList left, plain_text_toList right] at chars
  have sign : x.negative = y.negative := by
    have minus (z w : Binary64) : ['-'] ++ (unsigned z).toList ≠ (unsigned w).toList := fun same => by
      refine minus_not_mem w ?_
      rw [← same]
      exact List.mem_cons_self
    cases negative : x.negative <;> cases negative' : y.negative <;> simp only [negative, negative'] at chars
    · rfl
    · exact absurd chars.symm (minus y x)
    · exact absurd chars (minus x y)
    · rfl
  rw [sign] at chars
  have magnitude := magnitude_eq_of_unsigned (String.toList_inj.1 (List.append_cancel_left chars))
  have bits : x.bits = y.bits := UInt64.toNat_inj.1 (by rw [x.bits_eq, y.bits_eq, sign, magnitude])
  cases x
  cases y
  exact congrArg _ bits

end Floats

end GraphStore.Decimal
