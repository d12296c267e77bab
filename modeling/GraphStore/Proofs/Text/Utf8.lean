import GraphStore.Text.Utf8

/-! Text survives its bytes: what is encoded is decoded again, so no two texts share their bytes. -/
namespace GraphStore.Utf8

theorem toNat_octet {n : Nat} (h : n < 256) : (octet n).toNat = n := by
  rw [octet, UInt8.toNat_ofNat']
  omega

theorem char_range (c : Char) : c.toNat < 0xD800 ∨ 0xDFFF < c.toNat ∧ c.toNat < 0x110000 := c.valid

variable {n : Nat} (rest : Bytes)

theorem front_one (fits : n < 0x80) : front (octet n) rest = .char (Char.ofNat n) rest := by
  simp [front, toNat_octet (show n < 256 by omega), fits]

theorem front_two (above : 0x80 ≤ n) (fits : n < 0x800) :
    front (octet (0xC0 + n / 0x40)) (octet (0x80 + n % 0x40) :: rest) = .char (Char.ofNat n) rest := by
  simp only [front, isTail, toNat_octet (show 0xC0 + n / 0x40 < 256 by omega),
    toNat_octet (show 0x80 + n % 0x40 < 256 by omega)]
  rw [if_neg (by omega), if_neg (by omega), if_pos (by omega), if_pos (by simp; omega)]
  have value : (0xC0 + n / 0x40 - 0xC0) * 0x40 + (0x80 + n % 0x40 - 0x80) = n := by omega
  rw [value]

/-- Neither overlong nor a surrogate, so the second byte is in its span. -/
theorem front_three (above : 0x800 ≤ n) (fits : n < 0x10000) (range : n < 0xD800 ∨ 0xDFFF < n) :
    front (octet (0xE0 + n / 0x1000))
        (octet (0x80 + n / 0x40 % 0x40) :: octet (0x80 + n % 0x40) :: rest) =
      .char (Char.ofNat n) rest := by
  simp only [front, isTail, toNat_octet (show 0xE0 + n / 0x1000 < 256 by omega),
    toNat_octet (show 0x80 + n / 0x40 % 0x40 < 256 by omega),
    toNat_octet (show 0x80 + n % 0x40 < 256 by omega)]
  have second : secondFits (0xE0 + n / 0x1000) (0x80 + n / 0x40 % 0x40) = true := by
    simp only [secondFits, Bool.and_eq_true, decide_eq_true_eq]
    repeat' split
    all_goals omega
  rw [if_neg (by omega), if_neg (by omega), if_neg (by omega), if_pos (by omega), if_pos second,
    if_pos (by simp; omega)]
  have value : (0xE0 + n / 0x1000 - 0xE0) * 0x1000 + (0x80 + n / 0x40 % 0x40 - 0x80) * 0x40
      + (0x80 + n % 0x40 - 0x80) = n := by omega
  rw [value]

theorem front_four (above : 0x10000 ≤ n) (fits : n < 0x110000) :
    front (octet (0xF0 + n / 0x40000))
        (octet (0x80 + n / 0x1000 % 0x40) :: octet (0x80 + n / 0x40 % 0x40) ::
          octet (0x80 + n % 0x40) :: rest) =
      .char (Char.ofNat n) rest := by
  simp only [front, isTail, toNat_octet (show 0xF0 + n / 0x40000 < 256 by omega),
    toNat_octet (show 0x80 + n / 0x1000 % 0x40 < 256 by omega),
    toNat_octet (show 0x80 + n / 0x40 % 0x40 < 256 by omega),
    toNat_octet (show 0x80 + n % 0x40 < 256 by omega)]
  have second : secondFits (0xF0 + n / 0x40000) (0x80 + n / 0x1000 % 0x40) = true := by
    simp only [secondFits, Bool.and_eq_true, decide_eq_true_eq]
    repeat' split
    all_goals omega
  rw [if_neg (by omega), if_neg (by omega), if_neg (by omega), if_neg (by omega),
    if_pos (by omega), if_pos second, if_pos (by simp; omega), if_pos (by simp; omega)]
  have value : (0xF0 + n / 0x40000 - 0xF0) * 0x40000
      + (0x80 + n / 0x1000 % 0x40 - 0x80) * 0x1000 + (0x80 + n / 0x40 % 0x40 - 0x80) * 0x40
      + (0x80 + n % 0x40 - 0x80) = n := by omega
  rw [value]

/-- The sequence at the front of a character's bytes is that character. -/
theorem front_encodeChar (c : Char) :
    ∃ lead tail, encodeChar c = lead :: tail ∧ front lead (tail ++ rest) = .char c rest := by
  have range := char_range c
  have whole := Char.ofNat_toNat c
  simp only [encodeChar]
  generalize c.toNat = n at *
  subst whole
  by_cases one : n < 0x80
  · rw [if_pos one]
    exact ⟨_, [], rfl, front_one rest one⟩
  rw [if_neg one]
  by_cases two : n < 0x800
  · rw [if_pos two]
    exact ⟨_, _, rfl, front_two rest (by omega) two⟩
  rw [if_neg two]
  by_cases three : n < 0x10000
  · rw [if_pos three]
    exact ⟨_, _, rfl, front_three rest (by omega) three (by omega)⟩
  · rw [if_neg three]
    exact ⟨_, _, rfl, front_four rest (by omega) (by omega)⟩

theorem decodeFrom_encode (cs : List Char) (fuel start : Nat)
    (enough : (cs.flatMap encodeChar).length ≤ fuel) :
    decodeFrom fuel start (cs.flatMap encodeChar) = .ok cs := by
  induction cs generalizing fuel start with
  | nil => cases fuel <;> rfl
  | cons c cs ih =>
    obtain ⟨lead, tail, shape, found⟩ := front_encodeChar (cs.flatMap encodeChar) c
    rw [List.flatMap_cons, shape] at enough ⊢
    cases fuel with
    | zero => simp at enough
    | succ fuel =>
      simp only [List.cons_append, List.length_cons, List.length_append] at enough
      rw [List.cons_append, decodeFrom]
      simp only [found]
      rw [ih fuel _ (by omega)]

theorem decode_encode (s : String) : decode (encode s) = .ok s := by
  rw [decode, encode, decodeFrom_encode s.toList _ 0 (Nat.le_refl _)]
  simp [Except.map]

theorem encode_inj {s t : String} : encode s = encode t ↔ s = t := by
  refine ⟨fun h => ?_, congrArg encode⟩
  have same := decode_encode s
  rw [h, decode_encode] at same
  exact (Except.ok.inj same).symm

end GraphStore.Utf8
