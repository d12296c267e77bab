import GraphStore.Proofs.Record.Ends

/-!
A slice holds the keys of the relations that it asks for, and no other key. Both of its ends are byte
strings that the front of a key is compared with: an end that lets in what starts with it stands as it is
below, and bumped above.
-/
namespace GraphStore

/-- What a slice asks of a relation that is seen from one of its vertices. -/
structure Slice.Asks (t : RelationType) (d : Direction) (intervals : List Interval)
    (adjacent : Option VertexId) (r : Relation) (position : Nat) : Prop where
  type : r.type = t.id
  direction : t.isPropertyKey = true ∨ d = .both ∨ d = .ofPosition position
  sortKey : ∀ e ∈ t.sortKey.zip intervals, e.2.admits (r.get? e.1)
  adjacent : ∀ v, adjacent = some v → r.otherVertex (.ofPosition position) = some v

open Bytes (Compares)

namespace Slice

variable {types : Types} {stored : SchemaId → Option Value}

/-- Keys whose front compares equal with the bytes lie between these and what is above them. -/
theorem contains_above {start stop front : Bytes} {o : Ordering} (h : Bytes.above start = .ok stop)
    (compared : Compares front start o) (rest : Bytes) :
    contains ⟨start, stop⟩ (front ++ rest) = true ↔ o = .eq := by
  rw [contains, Bool.and_eq_true, Bool.not_eq_true', ← Bool.not_eq_true, compared.less_iff,
    compared.less_above h]
  cases o <;> simp

theorem contains_ofRange {order : SortOrder} {low high : Bound} {lows highs frontL frontH : Bytes}
    {restL restH key : Bytes} {slice : Slice} {ol oh : Ordering}
    (h : ofRange order low high lows highs = .ok slice)
    (splitL : key = frontL ++ restL) (comparedL : Compares frontL lows (order.turn ol))
    (splitH : key = frontH ++ restH) (comparedH : Compares frontH highs (order.turn oh)) :
    slice.contains key = true ↔ LetsAbove low ol ∧ LetsBelow high oh := by
  cases order with
  | ascending =>
    obtain ⟨start, start_eq, h⟩ := bind_ok_iff.1 h
    obtain ⟨stop, stop_eq, h⟩ := bind_ok_iff.1 h
    obtain rfl := pure_ok_iff.1 h
    rw [contains, Bool.and_eq_true, Bool.not_eq_true']
    exact and_congr (splitL ▸ lower_iff start_eq comparedL restL)
      (splitH ▸ upper_iff stop_eq comparedH restH)
  | descending =>
    obtain ⟨start, start_eq, h⟩ := bind_ok_iff.1 h
    obtain ⟨stop, stop_eq, h⟩ := bind_ok_iff.1 h
    obtain rfl := pure_ok_iff.1 h
    rw [contains, Bool.and_eq_true, Bool.not_eq_true', and_comm]
    refine and_congr ?_ ?_
    · rw [← letsBelow_swap]
      exact splitL ▸ upper_iff stop_eq comparedL restL
    · rw [← letsAbove_swap]
      exact splitH ▸ lower_iff start_eq comparedH restH

/-- Unless a layout keeps the far vertex out of the key, it stands first of what follows the sort key. -/
def FarFollows (t : RelationType) (d : Direction) (vertex : Option VertexId) (after : Bytes) : Prop :=
  t.isPropertyKey = false → Layout.of t d ≠ .unique →
    ∃ other more, vertex = some other ∧ after = Bytes.escapedText other ++ more

/-- What stands behind a slice in one direction, once its intervals are accepted. -/
structure Directed (types : Types) (t : RelationType) (d : Direction) (intervals : List Interval)
    (adjacent : Option VertexId) (slice : Slice) (header lows highs : Bytes) : Prop where
  room : intervals.length ≤ t.sortKey.length
  last : rangeIsLast intervals = true
  header_eq : t.header d = .ok header
  ends_eq : ends types (t.sortKey.zip intervals) = .ok (lows, highs)
  built : match finalRange? intervals with
    | none => ofPoints t d intervals.length adjacent (header ++ t.sortOrder.turnBytes lows) = .ok slice
    | some (low, high) => adjacent = none ∧ ofRange t.sortOrder low high
        (header ++ t.sortOrder.turnBytes lows) (header ++ t.sortOrder.turnBytes highs) = .ok slice

theorem directed_ok {t : RelationType} {d : Direction} {intervals : List Interval}
    {adjacent : Option VertexId} {slice : Slice}
    (h : directed types t d intervals adjacent = .ok slice) :
    ∃ header lows highs, Directed types t d intervals adjacent slice header lows highs := by
  simp only [directed] at h
  split at h
  · cases h
  next room =>
  split at h
  · cases h
  next last =>
  obtain ⟨header, header_eq, h⟩ := bind_ok_iff.1 h
  obtain ⟨⟨lows, highs⟩, ends_eq, h⟩ := bind_ok_iff.1 h
  refine ⟨header, lows, highs, by omega, by simpa using last, header_eq, ends_eq, ?_⟩
  cases final : finalRange? intervals with
  | none =>
    simp only [final] at h
    cases order : t.sortOrder <;> simp only [order] at h <;> exact h
  | some range =>
    obtain ⟨low, high⟩ := range
    simp only [final] at h
    split at h
    · cases h
    next free =>
    refine ⟨by simpa using free, ?_⟩
    cases order : t.sortOrder <;> simp only [order] at h <;> exact h

theorem ofPoints_ok {t : RelationType} {d : Direction} {given : Nat} {adjacent : Option VertexId}
    {start : Bytes} {slice : Slice} (h : ofPoints t d given adjacent start = .ok slice) :
    ∃ extra stop, slice = ⟨start ++ extra, stop⟩ ∧ Bytes.above (start ++ extra) = .ok stop ∧
      (adjacent = none ∧ extra = [] ∨
        ∃ v, adjacent = some v ∧ narrows t d given = true ∧ extra = Bytes.escapedText v) := by
  cases adjacent with
  | none =>
    obtain ⟨_, same, h⟩ := bind_ok_iff.1 h
    obtain rfl := Except.ok.inj same
    obtain ⟨stop, stop_eq, h⟩ := bind_ok_iff.1 h
    refine ⟨[], stop, ?_, ?_, .inl ⟨rfl, rfl⟩⟩
    · rw [List.append_nil]
      exact (pure_ok_iff.1 h).symm
    · rwa [List.append_nil]
  | some v =>
    simp only [ofPoints] at h
    split at h
    · next near =>
      obtain ⟨_, same, h⟩ := bind_ok_iff.1 h
      obtain rfl := Except.ok.inj same
      obtain ⟨stop, stop_eq, h⟩ := bind_ok_iff.1 h
      exact ⟨_, stop, (pure_ok_iff.1 h).symm, stop_eq, .inr ⟨v, rfl, near, rfl⟩⟩
    · cases h

/-- The far vertex stands right after the fields just if these are the whole sort key. -/
theorem narrows_ok {t : RelationType} {d : Direction} {given : Nat}
    (unsorted : t.multiplicity.isConstrained = true → t.sortKey = [])
    (room : given ≤ t.sortKey.length) (h : narrows t d given = true) :
    t.isPropertyKey = false ∧ Layout.of t d ≠ .unique ∧ given = t.sortKey.length := by
  rw [narrows, Bool.and_eq_true, Bool.not_eq_true'] at h
  refine ⟨h.1, ?_⟩
  cases layout : Layout.of t d with
  | unique => simp [layout] at h
  | constrained =>
    have bare := unsorted (Layout.isConstrained (by rw [layout]; decide))
    rw [bare] at room ⊢
    exact ⟨by decide, Nat.le_zero.1 room⟩
  | unconstrained => exact ⟨by decide, by simpa [layout] using h.2⟩

namespace Directed

variable {t : RelationType} {d : Direction} {intervals : List Interval} {adjacent : Option VertexId}
  {slice : Slice} {header lows highs fields after : Bytes} {vertex : Option VertexId}

/-- Fields are turned byte by byte, so a key can be cut after any of them. -/
theorem cut {front rest : Bytes} (split : fields = front ++ rest) :
    header ++ (t.sortOrder.turnBytes fields ++ after) =
      (header ++ t.sortOrder.turnBytes front) ++ (t.sortOrder.turnBytes rest ++ after) := by
  rw [split, SortOrder.turnBytes_append]
  simp only [List.append_assoc]

/-- With points only, keys in the slice start with these and with the far vertex that is asked for. -/
theorem contains_points (made : Directed types t d intervals adjacent slice header lows highs)
    (unsorted : t.multiplicity.isConstrained = true → t.sortKey = []) {points : List Value}
    (shape : intervals = points.map .point) (final : finalRange? intervals = none)
    (written : Inline.writeAll types stored t.sortKey = .ok fields)
    (far : FarFollows t d vertex after) :
    slice.contains (header ++ (t.sortOrder.turnBytes fields ++ after)) = true ↔
      (∀ e ∈ t.sortKey.zip intervals, e.2.admits (stored e.1)) ∧
        ∀ v, adjacent = some v → vertex = some v := by
  have built := made.built
  rw [final] at built
  obtain ⟨o, front, rest, split, compared, whole, agrees⟩ :=
    ends_all_points shape made.room written made.ends_eq
  have before := (Compares.refl header).append (compared.turnBytes t.sortOrder)
  obtain ⟨extra, stop, rfl, stop_eq, ⟨rfl, rfl⟩ | ⟨v, rfl, near, rfl⟩⟩ := ofPoints_ok built
  · rw [cut split, contains_above stop_eq (by rwa [List.append_nil]), ← agrees]
    simp
  · -- the points are the whole sort key here, so nothing stands between them and the far vertex
    obtain ⟨label, apart, full⟩ := narrows_ok unsorted made.room near
    obtain ⟨other, more, rfl, rfl⟩ := far label apart
    obtain rfl := whole full
    rw [List.append_nil] at split
    have key : header ++ (t.sortOrder.turnBytes fields ++ (Bytes.escapedText other ++ more)) =
        (header ++ t.sortOrder.turnBytes front ++ Bytes.escapedText other) ++ more := by
      rw [split]
      simp only [List.append_assoc]
    rw [key, contains_above stop_eq (before.append (Bytes.compares_escapedText other v)), ← agrees]
    simp [Ordering.then_eq_eq, Utf8.encode_inj]

theorem contains_range (made : Directed types t d intervals adjacent slice header lows highs)
    {points : List Value} {low high : Bound} (shape : intervals = points.map .point ++ [.range low high])
    (final : finalRange? intervals = some (low, high))
    (written : Inline.writeAll types stored t.sortKey = .ok fields) :
    slice.contains (header ++ (t.sortOrder.turnBytes fields ++ after)) = true ↔
      (∀ e ∈ t.sortKey.zip intervals, e.2.admits (stored e.1)) ∧
        ∀ v, adjacent = some v → vertex = some v := by
  have built := made.built
  rw [final] at built
  obtain ⟨rfl, built⟩ := built
  obtain ⟨ol, oh, ⟨frontL, restL, splitL, comparedL⟩, ⟨frontH, restH, splitH, comparedH⟩, agrees⟩ :=
    ends_final shape made.room written made.ends_eq
  rw [contains_ofRange built (cut splitL)
    ((Compares.refl header).append (comparedL.turnBytes t.sortOrder)) (cut splitH)
    ((Compares.refl header).append (comparedH.turnBytes t.sortOrder)), agrees]
  simp

/-- The keys under the header of the slice that are in it. -/
theorem contains_own (made : Directed types t d intervals adjacent slice header lows highs)
    (unsorted : t.multiplicity.isConstrained = true → t.sortKey = [])
    (written : Inline.writeAll types stored t.sortKey = .ok fields)
    (far : FarFollows t d vertex after) :
    slice.contains (header ++ (t.sortOrder.turnBytes fields ++ after)) = true ↔
      (∀ e ∈ t.sortKey.zip intervals, e.2.admits (stored e.1)) ∧
        ∀ v, adjacent = some v → vertex = some v := by
  obtain ⟨points, ⟨shape, final⟩ | ⟨low, high, shape, final⟩⟩ := shape_of_rangeIsLast made.last
  · exact made.contains_points unsorted shape final written far
  · exact made.contains_range shape final written

/-- No key under another header is in the slice: the header decides before the fields are seen. -/
theorem contains_foreign (made : Directed types t d intervals adjacent slice header lows highs)
    {front : Bytes} {o : Ordering} (compared : Compares front header o) (apart : o ≠ .eq)
    (rest : Bytes) : slice.contains (front ++ rest) = false := by
  have decided (more : Bytes) : Compares front (header ++ more) o := by
    have extended := compared.extend apart [] more
    rwa [List.append_nil] at extended
  have built := made.built
  rw [← Bool.not_eq_true]
  cases final : finalRange? intervals with
  | none =>
    rw [final] at built
    obtain ⟨extra, stop, rfl, stop_eq, -⟩ := ofPoints_ok built
    rw [List.append_assoc] at stop_eq ⊢
    rwa [contains_above stop_eq (decided _)]
  | some range =>
    rw [final] at built
    -- turning twice leaves the order as it is, so both ends are met as if they were turned
    have turned (more : Bytes) :
        Compares front (header ++ more) (t.sortOrder.turn ((t.sortOrder.turn o).then .eq)) := by
      simpa using decided more
    rw [contains_ofRange built.2 rfl (turned _) rfl (turned _), lets_iff]
    simp [apart]

end Directed

end Slice

namespace Record

variable {types : Types} {r : Relation} {position : Nat}

/-- After the header of a key stands the sort key, and then the far vertex where the layout has it. -/
theorem Parts.key_front (p : Parts types r position)
    (unsorted : p.type.multiplicity.isConstrained = true → p.type.sortKey = []) :
    ∃ sort after, sortKey types p.type r = .ok sort ∧ p.key = p.header ++ (sort ++ after) ∧
      Slice.FarFollows p.type (.ofPosition position) (r.otherVertex (.ofPosition position)) after := by
  obtain ⟨tip, tip_eq, parts⟩ := keyAndEnds_ok p.keyAndEnds_eq
  have far_vertex : p.type.isPropertyKey = false →
      ∃ other, r.otherVertex (.ofPosition position) = some other ∧ tip = Bytes.escapedText other := by
    intro label
    obtain ⟨-, -, other, seen, far⟩ | ⟨-, ⟨type, declared⟩, -⟩ := farEnd_ok p.farEnd_eq
    · rw [far] at tip_eq
      exact ⟨other, seen, (Except.ok.inj tip_eq).symm⟩
    · simp [RelationType.isPropertyKey, declared] at label
  cases layout : Layout.of p.type (.ofPosition position) with
  | unique =>
    rw [layout] at parts
    have bare := unsorted (Layout.isConstrained (by rw [layout]; decide))
    exact ⟨[], [], sortKey_nil bare r, by simp [parts.1], fun _ apart => absurd layout apart⟩
  | constrained =>
    rw [layout] at parts
    have bare := unsorted (Layout.isConstrained (by rw [layout]; decide))
    refine ⟨[], tip, sortKey_nil bare r, by simp [parts.1], fun label _ => ?_⟩
    obtain ⟨other, seen, rfl⟩ := far_vertex label
    exact ⟨other, [], seen, by simp⟩
  | unconstrained =>
    obtain ⟨sort, sorted, key⟩ := p.key_eq (Layout.of_eq_unconstrained.1 layout)
    refine ⟨sort, _, sorted, key, fun label _ => ?_⟩
    obtain ⟨other, seen, -⟩ := far_vertex label
    exact ⟨other, _, seen, by rw [farKey, seen]; rfl⟩

/-- Headers compare equal just for one type, and for edges one direction. -/
theorem compares_header {s : Schema} {t : RelationType} (reached : s.Reachable)
    (known : s.lookup.type? t.id = some t) {d : Direction} {header : Bytes}
    (header_eq : t.header d = .ok header) (p : Parts s.lookup r position) :
    ∃ o, Compares p.header header o ∧
      (o = .eq ↔ r.type = t.id ∧ (t.isPropertyKey = true ∨ d = .ofPosition position)) := by
  obtain ⟨named, -⟩ := reached.sound p.known
  obtain ⟨slot, slot_eq, written⟩ := RelationType.header_ok header_eq
  obtain ⟨slot', slot_eq', written'⟩ := RelationType.header_ok p.header_eq
  obtain ⟨category, direction⟩ := slot_seen p slot_eq'
  have seen := RelationType.slot_ok slot_eq
  have compared := Header.compares_write written' written
  refine ⟨_, compared, compared.eq_iff.trans ⟨fun same => ?_, ?_⟩⟩
  · have whole := Header.write_injective (same ▸ written') written
    obtain ⟨sameType, rfl, -⟩ := Header.mk.inj whole
    refine ⟨named.symm.trans sameType, ?_⟩
    cases property : t.isPropertyKey
    · rw [property, if_neg Bool.false_ne_true] at seen
      exact .inr (seen.2.symm.trans direction)
    · exact .inl rfl
  · rintro ⟨sameType, property | rfl⟩
    · obtain rfl : p.type = t := Option.some.inj (p.known.symm.trans (sameType ▸ known))
      have slots : slot' = slot := by
        rw [property, if_pos rfl] at seen
        rw [seen]
        simpa [property] using category
      exact Except.ok.inj (written'.symm.trans (slots ▸ written))
    · obtain rfl : p.type = t := Option.some.inj (p.known.symm.trans (sameType ▸ known))
      exact Except.ok.inj (p.header_eq.symm.trans header_eq)

open Slice

theorem contains_directed {s : Schema} {t : RelationType} (reached : s.Reachable)
    (known : s.lookup.type? t.id = some t)
    (plain : ∀ key ∈ t.sortKey, ImplicitKey.isReserved key = false) {d : Direction}
    {intervals : List Interval} {adjacent : Option VertexId} {slice : Slice}
    (built : directed s.lookup t d intervals adjacent = .ok slice)
    (p : Parts s.lookup r position) :
    slice.contains p.key = true ↔
      (r.type = t.id ∧ (t.isPropertyKey = true ∨ d = .ofPosition position)) ∧
        (∀ e ∈ t.sortKey.zip intervals, e.2.admits (r.get? e.1)) ∧
        ∀ v, adjacent = some v → r.otherVertex (.ofPosition position) = some v := by
  obtain ⟨header, lows, highs, made⟩ := directed_ok built
  obtain ⟨sort, after, sorted, key, far⟩ := p.key_front (reached.sound p.known).2.unsorted
  obtain ⟨o, compared, own⟩ := compares_header reached known made.header_eq p
  rw [key]
  by_cases same : o = .eq
  · obtain ⟨sameType, seen⟩ := own.1 same
    obtain rfl : t = p.type := Option.some.inj (known.symm.trans (sameType ▸ p.known))
    rw [compared.eq_iff.1 same]
    obtain ⟨fields, written, rfl⟩ := sortKey_ok sorted
    have there : FarFollows p.type d (r.otherVertex (.ofPosition position)) after := by
      obtain property | rfl := seen
      · exact fun label => absurd property (by rw [label]; decide)
      · exact far
    have stored_fields : (∀ e ∈ p.type.sortKey.zip intervals, e.2.admits ((stored r).get? e.1)) ↔
        ∀ e ∈ p.type.sortKey.zip intervals, e.2.admits (r.get? e.1) := by
      refine forall₂_congr fun e member => ?_
      rw [stored_get? (plain e.1 (List.of_mem_zip member).1)]
    rw [made.contains_own (reached.sound p.known).2.unsorted written there,
      stored_fields]
    simp only [sameType, seen, and_self, true_and]
  · rw [made.contains_foreign compared same]
    have other := mt own.2 same
    simp [other]

/-- Slots of edges are neighbours, so both directions of a type lie between its two headers. -/
theorem contains_both {s : Schema} {t : RelationType} (reached : s.Reachable)
    (known : s.lookup.type? t.id = some t) (label : t.isPropertyKey = false) {slice : Slice}
    (built : both t = .ok slice) (p : Parts s.lookup r position) :
    slice.contains p.key = true ↔ r.type = t.id := by
  obtain ⟨named, -⟩ := reached.sound p.known
  obtain ⟨start, start_eq, built⟩ := bind_ok_iff.1 built
  obtain ⟨last, last_eq, built⟩ := bind_ok_iff.1 built
  obtain ⟨stop, stop_eq, built⟩ := bind_ok_iff.1 built
  obtain rfl := pure_ok_iff.1 built
  obtain ⟨_, after, -, key, -⟩ := p.key_front (reached.sound p.known).2.unsorted
  obtain ⟨slot, slot_eq, written⟩ := RelationType.header_ok p.header_eq
  rw [key, contains, Bool.and_eq_true, Bool.not_eq_true', ← Bool.not_eq_true,
    (Header.compares_write written start_eq).less_iff,
    (Header.compares_write written last_eq).less_above stop_eq, Nat.compare_eq_lt, Nat.compare_ne_gt]
  have seen := RelationType.slot_ok slot_eq
  have number := slot.number_lt
  constructor
  · rintro ⟨above, below⟩
    rw [← named, ← SchemaId.toNat_inj]
    have out : Slot.edgeOut.number = 2 := rfl
    have into : Slot.edgeIn.number = 3 := rfl
    simp only [Header.packed, out, into] at above below
    have small (b : Bool) : (if b then 1 else 0) ≤ 1 := by cases b <;> decide
    have visible := small t.invisible
    have visible' := small p.type.invisible
    omega
  · intro sameType
    obtain rfl : t = p.type := Option.some.inj (known.symm.trans (sameType ▸ p.known))
    rw [label, if_neg Bool.false_ne_true] at seen
    cases slot <;> simp_all [Header.packed, Slot.number]

/-- In every schema that additions lead to, a slice of a type holds the key of a record of any relation
just if it asks for the relation as seen there. -/
theorem contains_iff_asks {s : Schema} {t : RelationType} (reached : s.Reachable)
    (known : s.lookup.type? t.id = some t)
    (plain : ∀ key ∈ t.sortKey, ImplicitKey.isReserved key = false) {d : Direction}
    {intervals : List Interval} {adjacent : Option VertexId} {slice : Slice}
    (built : build s.lookup t d intervals adjacent = .ok slice) {rec : Record}
    (written : encode s.lookup r position = .ok rec) :
    slice.contains rec.key = true ↔ Asks t d intervals adjacent r position := by
  obtain ⟨p, rfl⟩ := encode_ok written
  show slice.contains p.key = true ↔ _
  rw [build] at built
  split at built
  · next either =>
    rw [Bool.and_eq_true, decide_eq_true_eq, Bool.not_eq_true'] at either
    split at built
    · cases built
    next free =>
    obtain ⟨rfl, label⟩ := either
    obtain ⟨bare, alone⟩ : intervals = [] ∧ adjacent = none := by simpa using free
    rw [contains_both reached known label built p, bare, alone]
    refine ⟨fun same => ⟨same, .inr (.inl rfl), by simp, nofun⟩, fun asked => asked.type⟩
  · next one =>
    have directions : (t.isPropertyKey = true ∨
        (if t.isPropertyKey then .out else d) = Direction.ofPosition position) ↔
        t.isPropertyKey = true ∨ d = .both ∨ d = .ofPosition position := by
      cases label : t.isPropertyKey
      · have single : d ≠ .both := by simpa [label] using one
        simp [single]
      · simp
    rw [contains_directed reached known plain built p, directions]
    exact ⟨fun ⟨⟨same, seen⟩, fields, far⟩ => ⟨same, seen, fields, far⟩,
      fun asked => ⟨⟨asked.type, asked.direction⟩, asked.sortKey, asked.adjacent⟩⟩

theorem contains_iff_asks_annKnows :
    ∃ slice rec, build Schema.acquaintance.lookup Schema.knows .out
        [.range (.included (.int 2001)) .unbounded] none = .ok slice ∧
      encode Schema.acquaintance.lookup (annKnows "k" "bob" 2001) 0 = .ok rec ∧
      slice.contains rec.key = true ∧ Asks Schema.knows .out
        [.range (.included (.int 2001)) .unbounded] none (annKnows "k" "bob" 2001) 0 := by
  obtain ⟨slice, built⟩ : ∃ slice, build Schema.acquaintance.lookup Schema.knows .out
      [.range (.included (.int 2001)) .unbounded] none = .ok slice := ⟨_, rfl⟩
  obtain ⟨rec, written⟩ : ∃ rec,
      encode Schema.acquaintance.lookup (annKnows "k" "bob" 2001) 0 = .ok rec := ⟨_, rfl⟩
  have told := contains_iff_asks Schema.acquaintance_reachable (t := Schema.knows) rfl (by decide)
    built written
  have asked : Asks Schema.knows .out [.range (.included (.int 2001)) .unbounded] none
      (annKnows "k" "bob" 2001) 0 :=
    ⟨rfl, .inr (.inr rfl), by decide, nofun⟩
  exact ⟨slice, rec, built, written, told.2 asked, asked⟩

end Record

end GraphStore
