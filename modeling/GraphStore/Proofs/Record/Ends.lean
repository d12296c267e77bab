import GraphStore.Proofs.Record.KeyOrder
import GraphStore.Record.Slice

/-!
The fields of the two ends of a slice. Points stand in both, and the bounds of a final range in one each.
The front of what a relation has for the sort key compares with the fields of an end as the values under
the keys compare with the points and then with the bound.
-/
namespace GraphStore

/-- A lower bound lets a value in. A missing value lies below every value. -/
def Bound.admitsAbove : Bound → Option Value → Prop
  | unbounded, _ => True
  | included v, x => Value.orderMissing x (some v) ≠ .lt
  | excluded v, x => Value.orderMissing x (some v) = .gt

/-- An upper bound lets a value in. -/
def Bound.admitsBelow : Bound → Option Value → Prop
  | unbounded, _ => True
  | included v, x => Value.orderMissing x (some v) ≠ .gt
  | excluded v, x => Value.orderMissing x (some v) = .lt

def Interval.admits : Interval → Option Value → Prop
  | point v, x => Value.orderMissing x (some v) = .eq
  | range low high, x => low.admitsAbove x ∧ high.admitsBelow x

instance : ∀ (b : Bound) (x : Option Value), Decidable (b.admitsAbove x)
  | .unbounded, _ => .isTrue trivial
  | .included v, x => inferInstanceAs (Decidable (Value.orderMissing x (some v) ≠ .lt))
  | .excluded v, x => inferInstanceAs (Decidable (Value.orderMissing x (some v) = .gt))

instance : ∀ (b : Bound) (x : Option Value), Decidable (b.admitsBelow x)
  | .unbounded, _ => .isTrue trivial
  | .included v, x => inferInstanceAs (Decidable (Value.orderMissing x (some v) ≠ .gt))
  | .excluded v, x => inferInstanceAs (Decidable (Value.orderMissing x (some v) = .lt))

instance : ∀ (interval : Interval) (x : Option Value), Decidable (interval.admits x)
  | .point v, x => inferInstanceAs (Decidable (Value.orderMissing x (some v) = .eq))
  | .range low high, x => inferInstanceAs (Decidable (low.admitsAbove x ∧ high.admitsBelow x))

open Bytes (Compares)

namespace Slice

/-- How a value stands to a bound, as far as there is one. -/
def order (x : Option Value) (b : Bound) : Ordering :=
  match b.value? with
  | none => .eq
  | some v => Value.orderMissing x (some v)

/-- What a lower end lets in, of all that compares with its bytes in some way. -/
def LetsAbove (b : Bound) (o : Ordering) : Prop :=
  match b with
  | .excluded _ => o = .gt
  | _ => o ≠ .lt

/-- What an upper end lets in. -/
def LetsBelow (b : Bound) (o : Ordering) : Prop :=
  match b with
  | .excluded _ => o = .lt
  | _ => o ≠ .gt

theorem letsAbove_order (b : Bound) (x : Option Value) :
    LetsAbove b (order x b) ↔ b.admitsAbove x := by
  cases b <;> simp [LetsAbove, order, Bound.value?, Bound.admitsAbove]

theorem letsBelow_order (b : Bound) (x : Option Value) :
    LetsBelow b (order x b) ↔ b.admitsBelow x := by
  cases b <;> simp [LetsBelow, order, Bound.value?, Bound.admitsBelow]

theorem lower_iff {b : Bound} {front bytes start : Bytes} {o : Ordering}
    (h : lower b bytes = .ok start) (compared : Compares front bytes o) (rest : Bytes) :
    Bytes.less (front ++ rest) start = false ↔ LetsAbove b o := by
  rw [← Bool.not_eq_true]
  cases b with
  | excluded v =>
    rw [compared.less_above h]
    cases o <;> simp [LetsAbove]
  | _ =>
    obtain rfl := Except.ok.inj h
    rw [compared.less_iff]
    rfl

theorem upper_iff {b : Bound} {front bytes stop : Bytes} {o : Ordering}
    (h : upper b bytes = .ok stop) (compared : Compares front bytes o) (rest : Bytes) :
    Bytes.less (front ++ rest) stop = true ↔ LetsBelow b o := by
  cases b with
  | excluded v =>
    obtain rfl := Except.ok.inj h
    exact compared.less_iff rest
  | _ => exact compared.less_above h rest

/-- Between two ends that share their first fields, just what agrees in these can be let in. -/
theorem lets_iff (low high : Bound) (shared ol oh : Ordering) :
    LetsAbove low (shared.then ol) ∧ LetsBelow high (shared.then oh) ↔
      shared = .eq ∧ LetsAbove low ol ∧ LetsBelow high oh := by
  cases shared <;> cases low <;> cases high <;> simp [LetsAbove, LetsBelow]

theorem letsAbove_swap (b : Bound) (o : Ordering) : LetsAbove b o.swap ↔ LetsBelow b o := by
  cases b <;> cases o <;> simp [LetsAbove, LetsBelow]

theorem letsBelow_swap (b : Bound) (o : Ordering) : LetsBelow b o.swap ↔ LetsAbove b o := by
  cases b <;> cases o <;> simp [LetsAbove, LetsBelow]

/-- Intervals that are accepted are points, but for the last. -/
theorem shape_of_rangeIsLast {intervals : List Interval} (h : rangeIsLast intervals = true) :
    ∃ points : List Value,
      (intervals = points.map .point ∧ finalRange? intervals = none) ∨
        ∃ low high, intervals = points.map .point ++ [.range low high] ∧
          finalRange? intervals = some (low, high) := by
  induction intervals with
  | nil => exact ⟨[], .inl ⟨rfl, rfl⟩⟩
  | cons interval rest ih =>
    cases interval with
    | range low high =>
      cases rest with
      | nil => exact ⟨[], .inr ⟨low, high, rfl, rfl⟩⟩
      | cons next rest => simp [rangeIsLast, Interval.isRange] at h
    | point v =>
      have later : rangeIsLast rest = true := by
        cases rest <;> simp_all [rangeIsLast, Interval.isRange]
      obtain ⟨points, ⟨shape, final⟩ | ⟨low, high, shape, final⟩⟩ := ih later
      · exact ⟨v :: points, .inl ⟨by simp [shape], by simpa [finalRange?] using final⟩⟩
      · exact ⟨v :: points, .inr ⟨low, high, by simp [shape], by simpa [finalRange?] using final⟩⟩

variable {types : Types} {stored : SchemaId → Option Value}

theorem ends_point {key : SchemaId} {v : Value} {rest : List (SchemaId × Interval)}
    {lows highs : Bytes} (h : ends types ((key, .point v) :: rest) = .ok (lows, highs)) :
    ∃ declared asked lows' highs', types.keyType key = .ok declared ∧
      Inline.write declared (some v) = .ok asked ∧ ends types rest = .ok (lows', highs') ∧
      lows = asked ++ lows' ∧ highs = asked ++ highs' := by
  rw [ends] at h
  obtain ⟨declared, typed, h⟩ := bind_ok_iff.1 h
  obtain ⟨asked, written, h⟩ := bind_ok_iff.1 h
  obtain ⟨_, given, h⟩ := bind_ok_iff.1 h
  obtain rfl := Except.ok.inj given
  obtain ⟨⟨lows', highs'⟩, later, h⟩ := bind_ok_iff.1 h
  obtain ⟨rfl, rfl⟩ := Prod.mk.inj (pure_ok_iff.1 h)
  exact ⟨declared, asked, lows', highs', typed, written, later, rfl, rfl⟩

theorem ends_range {key : SchemaId} {low high : Bound} {rest : List (SchemaId × Interval)}
    {lows highs : Bytes} (h : ends types ((key, .range low high) :: rest) = .ok (lows, highs)) :
    ∃ declared below above lows' highs', types.keyType key = .ok declared ∧
      boundBytes declared low = .ok below ∧ boundBytes declared high = .ok above ∧
      ends types rest = .ok (lows', highs') ∧ lows = below ++ lows' ∧ highs = above ++ highs' := by
  rw [ends] at h
  obtain ⟨declared, typed, h⟩ := bind_ok_iff.1 h
  obtain ⟨below, low_eq, h⟩ := bind_ok_iff.1 h
  obtain ⟨above, high_eq, h⟩ := bind_ok_iff.1 h
  obtain ⟨_, given, h⟩ := bind_ok_iff.1 h
  obtain rfl := Except.ok.inj given
  obtain ⟨⟨lows', highs'⟩, later, h⟩ := bind_ok_iff.1 h
  obtain ⟨rfl, rfl⟩ := Prod.mk.inj (pure_ok_iff.1 h)
  exact ⟨declared, below, above, lows', highs', typed, low_eq, high_eq, later, rfl, rfl⟩

/-- Points stand in both ends as the fields of a relation that agrees with them. -/
theorem ends_points {points : List Value} {final : List Interval} {keys : List SchemaId}
    {fields lows highs : Bytes} (room : points.length ≤ keys.length)
    (written : Inline.writeAll types stored keys = .ok fields)
    (built : ends types (keys.zip (points.map .point ++ final)) = .ok (lows, highs)) :
    ∃ front rest shared lows' highs' o, fields = front ++ rest ∧ lows = shared ++ lows' ∧
      highs = shared ++ highs' ∧ Inline.writeAll types stored (keys.drop points.length) = .ok rest ∧
      ends types ((keys.drop points.length).zip final) = .ok (lows', highs') ∧
      Compares front shared o ∧
      ((o = .eq ∧ ∀ e ∈ (keys.drop points.length).zip final, e.2.admits (stored e.1)) ↔
        ∀ e ∈ keys.zip (points.map .point ++ final), e.2.admits (stored e.1)) := by
  induction points generalizing keys fields lows highs with
  | nil =>
    exact ⟨[], fields, [], lows, highs, .eq, rfl, rfl, rfl, written, built, Compares.refl [], by simp⟩
  | cons v points ih =>
    cases keys with
    | nil => simp at room
    | cons key keys =>
      obtain ⟨declared, field, others, typed, field_eq, others_eq, rfl⟩ :=
        Inline.writeAll_cons_ok written
      rw [List.map_cons, List.cons_append, List.zip_cons_cons] at built
      obtain ⟨declared', asked, lows', highs', typed', asked_eq, later, rfl, rfl⟩ := ends_point built
      obtain rfl := Except.ok.inj (typed.symm.trans typed')
      obtain ⟨front, rest, shared, lows, highs, o, rfl, rfl, rfl, rest_eq, ends_eq, compared, agrees⟩ :=
        ih (by simpa using room) others_eq later
      refine ⟨field ++ front, rest, asked ++ shared, lows, highs,
        (Value.orderMissing (stored key) (some v)).then o, ?_, ?_, ?_, rest_eq, ends_eq,
        (Inline.compares_write field_eq asked_eq).append compared, ?_⟩
      · rw [List.append_assoc]
      · rw [List.append_assoc]
      · rw [List.append_assoc]
      · rw [Ordering.then_eq_eq, and_assoc, List.length_cons, List.drop_succ_cons, agrees,
          List.map_cons, List.cons_append, List.zip_cons_cons, List.forall_mem_cons]
        rfl

/-- A bound stands in its end as a field does; a missing one asks nothing. -/
theorem compares_bound {declared : DataType} {b : Bound} {x : Option Value} {field asked : Bytes}
    (written : Inline.write declared x = .ok field) (built : boundBytes declared b = .ok asked) :
    ∃ front rest, field = front ++ rest ∧ Compares front asked (order x b) := by
  cases b with
  | unbounded =>
    obtain rfl := Except.ok.inj built
    exact ⟨[], field, rfl, Compares.refl []⟩
  | included v => exact ⟨field, [], by simp, Inline.compares_write written built⟩
  | excluded v => exact ⟨field, [], by simp, Inline.compares_write written built⟩

/-- The fields of a relation stand to both ends of a final range as its value stands to the bounds, if they
agree with the points before. -/
theorem ends_final {points : List Value} {low high : Bound} {intervals : List Interval}
    {keys : List SchemaId} {fields lows highs : Bytes}
    (shape : intervals = points.map .point ++ [.range low high])
    (room : intervals.length ≤ keys.length) (written : Inline.writeAll types stored keys = .ok fields)
    (built : ends types (keys.zip intervals) = .ok (lows, highs)) :
    ∃ ol oh, (∃ front rest, fields = front ++ rest ∧ Compares front lows ol) ∧
      (∃ front rest, fields = front ++ rest ∧ Compares front highs oh) ∧
      (LetsAbove low ol ∧ LetsBelow high oh ↔
        ∀ e ∈ keys.zip intervals, e.2.admits (stored e.1)) := by
  subst shape
  rw [List.length_append, List.length_map, List.length_singleton] at room
  obtain ⟨front, rest, shared, lows', highs', o, rfl, rfl, rfl, rest_eq, ends_eq, compared, agrees⟩ :=
    ends_points (by omega) written built
  obtain ⟨key, after, split⟩ : ∃ key after, keys.drop points.length = key :: after :=
    List.exists_cons_of_length_pos (by rw [List.length_drop]; omega)
  rw [← agrees]
  rw [split] at rest_eq
  rw [split, List.zip_cons_cons, List.zip_nil_right] at ends_eq ⊢
  obtain ⟨declared, field, others, typed, field_eq, -, rfl⟩ := Inline.writeAll_cons_ok rest_eq
  obtain ⟨declared', below, above, lows, highs, typed', low_eq, high_eq, nothing, rfl, rfl⟩ :=
    ends_range ends_eq
  obtain rfl := Except.ok.inj (typed.symm.trans typed')
  obtain ⟨rfl, rfl⟩ := Prod.mk.inj (Except.ok.inj nothing)
  obtain ⟨frontL, restL, splitL, comparedL⟩ := compares_bound field_eq low_eq
  obtain ⟨frontH, restH, splitH, comparedH⟩ := compares_bound field_eq high_eq
  refine ⟨o.then (order (stored key) low), o.then (order (stored key) high),
    ⟨front ++ frontL, restL ++ others, ?_, ?_⟩, ⟨front ++ frontH, restH ++ others, ?_, ?_⟩, ?_⟩
  · rw [splitL]; simp only [List.append_assoc]
  · rw [List.append_nil]; exact compared.append comparedL
  · rw [splitH]; simp only [List.append_assoc]
  · rw [List.append_nil]; exact compared.append comparedH
  · rw [lets_iff, letsAbove_order, letsBelow_order]
    simp [Interval.admits]

theorem ends_all_points {points : List Value} {intervals : List Interval} {keys : List SchemaId}
    {fields lows highs : Bytes} (shape : intervals = points.map .point)
    (room : intervals.length ≤ keys.length) (written : Inline.writeAll types stored keys = .ok fields)
    (built : ends types (keys.zip intervals) = .ok (lows, highs)) :
    ∃ o front rest, fields = front ++ rest ∧ Compares front lows o ∧
      (intervals.length = keys.length → rest = []) ∧
      (o = .eq ↔ ∀ e ∈ keys.zip intervals, e.2.admits (stored e.1)) := by
  subst shape
  rw [List.length_map] at *
  rw [← List.append_nil (points.map _)] at built
  obtain ⟨front, rest, shared, lows', highs', o, rfl, rfl, rfl, rest_eq, ends_eq, compared, agrees⟩ :=
    ends_points room written built
  rw [List.zip_nil_right] at ends_eq
  obtain ⟨rfl, rfl⟩ := Prod.mk.inj (Except.ok.inj ends_eq)
  refine ⟨o, front, rest, rfl, by rwa [List.append_nil], fun full => ?_, ?_⟩
  · rw [full, List.drop_length] at rest_eq
    exact (Except.ok.inj rest_eq).symm
  · rw [List.append_nil] at agrees
    rw [← agrees]
    simp

end Slice

end GraphStore
