import GraphStore.Bytes.Above

/-!
Byte strings in their order, and forms that keep an order when other bytes follow them. Two forms
compare as `r` when `r` decides every comparison of strings that start with them, and what follows
decides if `r` is equality. This makes a form keep its order and tell where it ends at once, and it is
kept by putting forms one after another and, with `r` turned around, by flipping their bits.
-/
namespace GraphStore.Bytes

@[simp] theorem compare_cons (a b : UInt8) (x y : Bytes) :
    compare (a :: x) (b :: y) = (compare a b).then (compare x y) := List.compare_cons_cons

theorem byte_compare (a b : UInt8) : compare a b = compare a.toNat b.toNat := by
  rcases Nat.lt_trichotomy a.toNat b.toNat with h | h | h
  · rw [Nat.compare_eq_lt.2 h]
    exact Std.compare_eq_lt.2 (UInt8.lt_iff_toNat_lt.2 h)
  · rw [Nat.compare_eq_eq.2 h]
    exact Std.LawfulEqOrd.compare_eq_iff_eq.2 (UInt8.toNat_inj.1 h)
  · rw [Nat.compare_eq_gt.2 h]
    exact Std.compare_eq_gt.2 (UInt8.lt_iff_toNat_lt.2 h)

/-- Turning the bits of two bytes turns their comparison. -/
theorem compare_complement (a b : UInt8) : compare (~~~a) (~~~b) = (compare a b).swap := by
  have ha := a.toNat_lt
  have hb := b.toNat_lt
  rw [byte_compare, byte_compare a b, UInt8.toNat_not, UInt8.toNat_not, Nat.compare_swap]
  simp only [UInt8.size, Nat.compare_eq_ite_lt]
  grind

theorem compare_self (x : Bytes) : compare x x = .eq := Std.ReflCmp.compare_self

theorem compare_eq_eq {x y : Bytes} : compare x y = .eq ↔ x = y :=
  Std.LawfulEqOrd.compare_eq_iff_eq

@[simp] theorem compare_append_left (x s t : Bytes) : compare (x ++ s) (x ++ t) = compare s t := by
  induction x with
  | nil => rfl
  | cons a x ih => simp [ih, Std.ReflCmp.compare_self]

theorem compare_nil_ne_lt (x : Bytes) : compare x [] ≠ .lt := by
  cases x <;> simp [List.compare_cons_nil]

theorem less_iff (x y : Bytes) : less x y = true ↔ compare x y = .lt := by
  induction x generalizing y with
  | nil => cases y <;> simp [less]
  | cons a x ih =>
    cases y with
    | nil => simp [less]
    | cons b y =>
      simp only [less, compare_cons, Ordering.then_eq_lt, Bool.or_eq_true, Bool.and_eq_true,
        decide_eq_true_eq, ih, Std.compare_eq_lt, Std.LawfulEqOrd.compare_eq_iff_eq]

/-- One form compares to another as `r`, whatever follows the two. -/
def Compares (x y : Bytes) (r : Ordering) : Prop :=
  ∀ s t, compare (x ++ s) (y ++ t) = r.then (compare s t)

namespace Compares

variable {x y x' y' : Bytes} {r r' : Ordering}

theorem refl (x : Bytes) : Compares x x .eq := fun s t => by simp

theorem append (h : Compares x y r) (h' : Compares x' y' r') :
    Compares (x ++ x') (y ++ y') (r.then r') := by
  intro s t
  rw [List.append_assoc, List.append_assoc, h, h', Ordering.then_assoc]

theorem result (h : Compares x y r) : compare x y = r := by simpa using h [] []

theorem eq_iff (h : Compares x y r) : r = .eq ↔ x = y := by
  rw [← h.result, compare_eq_eq]

/-- Once a comparison is decided, any bytes may follow. -/
theorem extend (h : Compares x y r) (decided : r ≠ .eq) (u v : Bytes) :
    Compares (x ++ u) (y ++ v) r := by
  intro s t
  rw [List.append_assoc, List.append_assoc, h]
  cases r <;> simp_all

theorem cons {a b : UInt8} (h : Compares x y r) :
    Compares (a :: x) (b :: y) ((compare a b).then r) := by
  intro s t
  simp [h s t, Ordering.then_assoc]

/-- A first byte that differs decides. -/
theorem of_head {a b : UInt8} (different : a ≠ b) (x y : Bytes) :
    Compares (a :: x) (b :: y) (compare a b) := by
  intro s t
  cases h : compare a b with
  | lt => simp [h]
  | eq => exact absurd (Std.LawfulEqOrd.compare_eq_iff_eq.1 h) different
  | gt => simp [h]

/-- Strings of one length compare to the end of the shorter before anything that follows. -/
theorem of_length (same : x.length = y.length) : Compares x y (compare x y) := by
  induction x generalizing y with
  | nil =>
    obtain rfl : y = [] := List.length_eq_zero_iff.1 same.symm
    exact refl []
  | cons a x ih =>
    cases y with
    | nil => simp at same
    | cons b y => simpa using (ih (y := y) (by simpa using same)).cons (a := a) (b := b)

/-- Of two forms that compare, neither goes on from the other. -/
theorem eq_of_prefix (h : Compares x y r) (start : x <+: y) : x = y := by
  obtain ⟨tail, rfl⟩ := start
  have decided := h tail []
  rw [List.append_nil, compare_self] at decided
  exact h.eq_iff.1 (Ordering.then_eq_eq.1 decided.symm).1

/-- Two strings of which neither goes on from the other compare before anything that follows. -/
theorem of_apart (forth : x <+: y → x = y) (back : y <+: x → y = x) :
    Compares x y (compare x y) := by
  induction x generalizing y with
  | nil =>
    obtain rfl := forth List.nil_prefix
    exact refl []
  | cons a x ih =>
    cases y with
    | nil => cases back List.nil_prefix
    | cons b y =>
      rw [compare_cons]
      by_cases same : a = b
      · subst same
        have forth' (start : x <+: y) : x = y := by simpa [start] using forth
        have back' (start : y <+: x) : y = x := by simpa [start] using back
        exact (ih forth' back').cons
      · have head := of_head same x y
        rwa [← compare_cons, head.result]

/-- A decided comparison is decided inside both forms, so it turns around with their bits. -/
theorem flip (h : Compares x y r) : Compares (flip x) (flip y) r.swap := by
  induction x generalizing y r with
  | nil =>
    cases y with
    | nil =>
      obtain rfl : r = .eq := by simpa using h.result.symm
      exact refl []
    | cons b y =>
      have before := h (b :: y) []
      have after := h [] []
      cases r <;> simp [Std.ReflCmp.compare_self] at before after
  | cons a x ih =>
    cases y with
    | nil =>
      have before := h [] (a :: x)
      have after := h [] []
      cases r <;> simp [Std.ReflCmp.compare_self] at before after
    | cons b y =>
      by_cases same : a = b
      · subst same
        have rest : Compares x y r := fun s t => by
          simpa [Std.ReflCmp.compare_self] using h s t
        simpa [Bytes.flip, Std.ReflCmp.compare_self] using (ih rest).cons (a := ~~~a) (b := ~~~a)
      · have turned : ~~~a ≠ ~~~b := fun e => same (by simpa using congrArg (~~~ ·) e)
        have decided : r = compare a b := by rw [← h.result, (of_head same x y).result]
        rw [decided, ← compare_complement]
        exact of_head turned _ _

/-- What starts with a form and ends anywhere lies below another form if the two compare so. -/
theorem less_iff (h : Compares x y r) (rest : Bytes) : less (x ++ rest) y = true ↔ r = .lt := by
  have decided := h rest []
  rw [List.append_nil] at decided
  rw [Bytes.less_iff, decided, Ordering.then_eq_lt]
  simp [compare_nil_ne_lt]

theorem prefix_iff (h : Compares x y r) (rest : Bytes) : y <+: x ++ rest → r = .eq := by
  rintro ⟨tail, shape⟩
  have decided := h rest tail
  rw [← shape, compare_append_left, compare_self] at decided
  exact (Ordering.then_eq_eq.1 decided.symm).1

end Compares

/-! The string above a start ends the interval of everything that starts so. -/

/-- What lies below a start or begins with it. -/
def UpTo (start k : Bytes) : Prop := compare k start = .lt ∨ start <+: k

theorem upTo_nil (k : Bytes) : UpTo [] k := .inr (List.nil_prefix)

theorem upTo_cons_nil (a : UInt8) (start : Bytes) : UpTo (a :: start) [] :=
  .inl List.compare_nil_cons

theorem upTo_cons_cons (a c : UInt8) (start k : Bytes) :
    UpTo (a :: start) (c :: k) ↔ compare c a = .lt ∨ c = a ∧ UpTo start k := by
  simp only [UpTo, compare_cons, Ordering.then_eq_lt, Std.LawfulEqOrd.compare_eq_iff_eq,
    List.cons_prefix_cons, eq_comm (a := a)]
  constructor
  · rintro ((h | ⟨h, h'⟩) | ⟨h, h'⟩)
    · exact .inl h
    · exact .inr ⟨h, .inl h'⟩
    · exact .inr ⟨h, .inr h'⟩
  · rintro (h | ⟨h, h' | h'⟩)
    · exact .inl (.inl h)
    · exact .inl (.inr ⟨h, h'⟩)
    · exact .inr ⟨h, h'⟩

theorem below_greatest (c : UInt8) : compare c 0xff = .lt ∨ c = 0xff := by
  have bound := c.toNat_lt
  rcases Nat.lt_or_ge c.toNat 255 with small | large
  · exact .inl (Std.compare_eq_lt.2 (UInt8.lt_iff_toNat_lt.2 small))
  · exact .inr (UInt8.toNat_inj.1 (by simp; omega))

/-- No byte exceeds `FF`, so a start keeps its interval when one is put behind it. -/
theorem upTo_greatest (start k : Bytes) : UpTo (start ++ [0xff]) k ↔ UpTo start k := by
  induction start generalizing k with
  | nil =>
    cases k with
    | nil => simp [upTo_nil, upTo_cons_nil]
    | cons c k =>
      simp [upTo_cons_cons, upTo_nil, below_greatest c]
  | cons a start ih =>
    cases k with
    | nil => simp [upTo_cons_nil]
    | cons c k => simp [upTo_cons_cons, ih]

/-- Raising the last byte ends the interval. -/
theorem less_bumped (start : Bytes) {a : UInt8} (h : a ≠ 0xff) (k : Bytes) :
    compare k (start ++ [a + 1]) = .lt ↔ UpTo (start ++ [a]) k := by
  induction start generalizing k with
  | nil =>
    cases k with
    | nil => simp [upTo_cons_nil, List.compare_nil_cons]
    | cons c k =>
      have apart : a.toNat ≠ 255 := fun e => h (UInt8.toNat_inj.1 e)
      have bound := a.toNat_lt
      have next : (a + 1).toNat = a.toNat + 1 := by
        rw [UInt8.toNat_add]
        simp
        omega
      simp only [List.nil_append, compare_cons, upTo_cons_cons, Ordering.then_eq_lt, upTo_nil,
        and_true, compare_nil_ne_lt, and_false, or_false, byte_compare, Nat.compare_eq_lt, next,
        ← UInt8.toNat_inj]
      omega
  | cons b start ih =>
    cases k with
    | nil => simp [upTo_cons_nil, List.compare_nil_cons]
    | cons c k =>
      simp [upTo_cons_cons, Ordering.then_eq_lt, ih]

theorem less_bumpLast {start stop : Bytes} (h : bumpLast start = some stop) (k : Bytes) :
    compare k stop.reverse = .lt ↔ UpTo start.reverse k := by
  induction start with
  | nil => simp [bumpLast] at h
  | cons a start ih =>
    simp only [bumpLast] at h
    split at h
    · next greatest =>
      rw [List.reverse_cons, greatest, upTo_greatest]
      exact ih h
    · next small =>
      obtain rfl := Option.some.inj h
      simpa using less_bumped start.reverse small k

theorem less_above {start stop : Bytes} (h : above start = .ok stop) (k : Bytes) :
    less k stop = true ↔ UpTo start k := by
  rw [less_iff]
  simp only [above] at h
  split at h
  · next bumped found =>
    obtain rfl := Except.ok.inj h
    simpa using less_bumpLast found k
  · simp at h

theorem bumpLast_exists {l : Bytes} {b : UInt8} (there : b ∈ l) (small : b ≠ 0xff) :
    ∃ bumped, bumpLast l = some bumped := by
  induction l with
  | nil => cases there
  | cons a l ih =>
    rw [bumpLast]
    split
    · next greatest =>
      refine ih (List.mem_of_ne_of_mem ?_ there)
      rintro rfl
      exact small greatest
    · exact ⟨_, rfl⟩

/-- Something lies above all that starts with the bytes, unless these are all `FF`. -/
theorem above_exists {start : Bytes} {b : UInt8} (there : b ∈ start) (small : b ≠ 0xff) :
    ∃ stop, above start = .ok stop := by
  obtain ⟨bumped, found⟩ := bumpLast_exists (List.mem_reverse.2 there) small
  exact ⟨bumped.reverse, by rw [above, found]⟩

/-- What starts with a form stays below the end of another form's interval unless it compares above. -/
theorem Compares.less_above {x y stop : Bytes} {r : Ordering} (h : Compares x y r)
    (found : above y = .ok stop) (rest : Bytes) : less (x ++ rest) stop = true ↔ r ≠ .gt := by
  rw [Bytes.less_above found, UpTo]
  have decided := h rest []
  rw [List.append_nil] at decided
  constructor
  · rintro (below | start) above
    · simp [decided, above] at below
    · simp [h.prefix_iff rest start] at above
  · intro below
    cases r with
    | lt => exact .inl decided
    | eq => exact .inr (h.eq_iff.1 rfl ▸ List.prefix_append ..)
    | gt => exact absurd rfl below

end GraphStore.Bytes
