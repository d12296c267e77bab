import GraphStore.Proofs.Bytes.Order

/-!
The string above a start, among all byte strings. With the start it cuts out just what starts so, and nothing
less lies above all of that. Bytes `FF` alone have no such string: whatever is not below them goes on from
them.
-/
namespace GraphStore.Bytes

variable {start : Bytes}

/-- Above everything that starts so. -/
def Bounds (start u : Bytes) : Prop := ∀ k, start <+: k → less k u = true

theorem not_less_of_start {k : Bytes} (h : start <+: k) : less k start = false := by
  obtain ⟨tail, rfl⟩ := h
  have rest := compare_append_left start tail []
  rw [List.append_nil] at rest
  rw [← Bool.not_eq_true, less_iff, rest]
  exact compare_nil_ne_lt tail

/-- Where a start is passed, all that goes on from it is passed. -/
theorem less_of_not_upTo {u : Bytes} (h : ¬ UpTo start u) (tail : Bytes) :
    less (start ++ tail) u = true := by
  -- Both strings are walked down together: the first byte at which they part decides, and decides upwards.
  induction start generalizing u with
  | nil => exact absurd (upTo_nil u) h
  | cons a start ih =>
    cases u with
    | nil => exact absurd (upTo_cons_nil a start) h
    | cons c u =>
      rw [upTo_cons_cons, not_or] at h
      obtain ⟨notBelow, later⟩ := h
      by_cases same : c = a
      · have passed : ¬ UpTo start u := fun upTo => later ⟨same, upTo⟩
        simp [less, same, ih passed]
      · have beyond : a < c := by
          rw [byte_compare, Nat.compare_eq_lt] at notBelow
          have apart : c.toNat ≠ a.toNat := fun e => same (UInt8.toNat_inj.1 e)
          rw [UInt8.lt_iff_toNat_lt]
          omega
        simp [less, beyond]

/-- The bounds of a start are what neither lies below it nor goes on from it. -/
theorem bounds_iff {u : Bytes} : Bounds start u ↔ ¬ UpTo start u := by
  constructor
  · rintro bounds (below | onward)
    · have beyond := (less_iff start u).1 (bounds start List.prefix_rfl)
      have turned : compare start u = (compare u start).swap := Std.OrientedCmp.eq_swap
      rw [turned, below] at beyond
      contradiction
    · have self := bounds u onward
      rw [not_less_of_start List.prefix_rfl] at self
      contradiction
  · rintro passed k ⟨tail, rfl⟩
    exact less_of_not_upTo passed tail

theorem upTo_of_greatest (h : ∀ b ∈ start, b = 0xff) (k : Bytes) : UpTo start k := by
  induction start generalizing k with
  | nil => exact upTo_nil k
  | cons a start ih =>
    obtain ⟨rfl, greatest⟩ := List.forall_mem_cons.1 h
    cases k with
    | nil => exact upTo_cons_nil _ start
    | cons c k =>
      rw [upTo_cons_cons]
      exact (below_greatest c).imp_right fun same => ⟨same, ih greatest k⟩

theorem bumpLast_of_greatest {l : Bytes} (h : ∀ b ∈ l, b = 0xff) : bumpLast l = none := by
  induction l with
  | nil => rfl
  | cons b l ih =>
    obtain ⟨rfl, greatest⟩ := List.forall_mem_cons.1 h
    exact ih greatest

theorem above_of_greatest (h : ∀ b ∈ start, b = 0xff) :
    above start = .error (.validation .nothingBigger) := by
  have none := bumpLast_of_greatest (l := start.reverse) fun b there => h b (List.mem_reverse.1 there)
  rw [above, none]

/-- From a start up to the string above it lies just what starts so, and what bounds all of that is what does not
lie below that string. Bytes that are all `FF` have nothing above them, and nothing bounds them. -/
theorem above_tight (start : Bytes) :
    ((∃ b ∈ start, b ≠ 0xff) → ∃ stop, above start = .ok stop ∧
        (∀ k, less k start = false ∧ less k stop = true ↔ start <+: k) ∧
        ∀ u, Bounds start u ↔ less u stop = false) ∧
      ((∀ b ∈ start, b = 0xff) →
        above start = .error (.validation .nothingBigger) ∧ ∀ u, ¬ Bounds start u) := by
  constructor
  · rintro ⟨b, there, small⟩
    obtain ⟨stop, found⟩ := above_exists there small
    refine ⟨stop, found, fun k => ?_, fun u => ?_⟩
    · rw [less_above found]
      constructor
      · rintro ⟨notBelow, below | onward⟩
        · rw [(less_iff k start).2 below] at notBelow
          contradiction
        · exact onward
      · exact fun onward => ⟨not_less_of_start onward, .inr onward⟩
    · rw [bounds_iff, ← less_above found, Bool.not_eq_true]
  · intro greatest
    refine ⟨above_of_greatest greatest, fun u bounds => ?_⟩
    exact bounds_iff.1 bounds (upTo_of_greatest greatest u)

end GraphStore.Bytes
