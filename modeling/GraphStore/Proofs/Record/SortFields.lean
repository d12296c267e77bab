import GraphStore.Proofs.Record.Collision

/-!
Sort keys leave nothing out. Every value that a relation has under a sort key and that is stored at all stands
in its record keys, at the place of its field: relations that differ there have different keys, and points on
the fields find the relation. Implicit keys are not stored, so in a sort key their place is empty.
-/
namespace GraphStore

open Bytes (Compares)

/-- A header starts with its width, which leaves room above. -/
theorem Header.above_exists {h : Header} {header : Bytes} (written : h.write = .ok header) (rest : Bytes) :
    ∃ stop, Bytes.above (header ++ rest) = .ok stop := by
  obtain ⟨-, rfl⟩ := write_ok written
  refine Bytes.above_exists List.mem_cons_self fun greatest => ?_
  have room := Bytes.significantBytes_le h.word.toNat
  rw [← Bytes.toNat_significantBytes, greatest] at room
  exact absurd room (by decide)

namespace Slice

theorem rangeIsLast_points (points : List Value) : rangeIsLast (points.map .point) = true := by
  induction points with
  | nil => rfl
  | cons v points ih => cases points <;> simp_all [rangeIsLast, Interval.isRange]

theorem finalRange?_points (points : List Value) : finalRange? (points.map .point) = none := by
  induction points with
  | nil => rfl
  | cons v points ih => simpa [finalRange?] using ih

/-- Points on what a relation has stand in both ends as in the fields of the relation. -/
theorem ends_points_of_held {types : Types} {held : SchemaId → Option Value} {keys : List SchemaId}
    {points : List Value} {fields : Bytes}
    (own : List.Forall₂ (fun key v => held key = some v) (keys.take points.length) points)
    (written : Inline.writeAll types held keys = .ok fields) :
    ∃ front rest, fields = front ++ rest ∧
      ends types (keys.zip (points.map .point)) = .ok (front, front) := by
  induction points generalizing keys fields with
  | nil => exact ⟨[], fields, rfl, by simp [ends]⟩
  | cons v points ih =>
    cases keys with
    | nil => cases own
    | cons key keys =>
      obtain ⟨there, others⟩ := List.forall₂_cons.1 own
      obtain ⟨declared, field, fields, typed, field_eq, fields_eq, rfl⟩ := Inline.writeAll_cons_ok written
      obtain ⟨front, rest, rfl, ends_eq⟩ := ih others fields_eq
      rw [there] at field_eq
      refine ⟨field ++ front, rest, by rw [List.append_assoc], ?_⟩
      rw [List.map_cons, List.zip_cons_cons, ends]
      exact bind_ok_iff.2 ⟨declared, typed, bind_ok_iff.2 ⟨field, field_eq,
        bind_ok_iff.2 ⟨(field, field), rfl, bind_ok_iff.2 ⟨(front, front), ends_eq, rfl⟩⟩⟩⟩

section Build

variable {types : Types} {t : RelationType} {d : Direction} {points : List Value} {header front stop : Bytes}

theorem directed_points (room : points.length ≤ t.sortKey.length) (header_eq : t.header d = .ok header)
    (ends_eq : ends types (t.sortKey.zip (points.map .point)) = .ok (front, front))
    (stop_eq : Bytes.above (header ++ t.sortOrder.turnBytes front) = .ok stop) :
    directed types t d (points.map .point) none = .ok ⟨header ++ t.sortOrder.turnBytes front, stop⟩ := by
  rw [directed, if_neg (by simpa using room), if_neg (by simp [rangeIsLast_points])]
  refine bind_ok_iff.2 ⟨header, header_eq, bind_ok_iff.2 ⟨(front, front), ends_eq, ?_⟩⟩
  rw [finalRange?_points]
  refine bind_ok_iff.2 ⟨_, rfl, bind_ok_iff.2 ⟨stop, ?_, ?_⟩⟩
  · cases order : t.sortOrder <;> simp only [order] at stop_eq <;> exact stop_eq
  · cases t.sortOrder <;> rfl

/-- Properties are sliced in one direction, edges in that which they are seen in. -/
theorem build_of_seen {position : Nat} (seen : t.isPropertyKey = true ∨ d = .ofPosition position)
    (header_eq : t.header (.ofPosition position) = .ok header) (intervals : List Interval)
    (adjacent : Option VertexId) :
    ∃ d', t.header d' = .ok header ∧ build types t d intervals adjacent =
      directed types t d' intervals adjacent := by
  cases property : t.isPropertyKey with
  | true =>
    refine ⟨.out, ?_, ?_⟩
    · simpa only [RelationType.header, RelationType.slot, property, if_true] using header_eq
    · rw [build, property, if_neg (by simp), if_pos rfl]
  | false =>
    obtain rfl := seen.resolve_left (by simp [property])
    have single : Direction.ofPosition position ≠ .both := by
      rw [Direction.ofPosition]
      split <;> decide
    exact ⟨_, header_eq, by rw [build, property, if_neg (by simp [single]), if_neg Bool.false_ne_true]⟩

end Build

end Slice

namespace Record

/-- What stands in a sort key for a key: a one and the value, or a zero where nothing is stored. -/
def sortField (r : Relation) (key : SchemaId) : Bytes :=
  match r.get? key, ImplicitKey.isReserved key with
  | some v, false => 1 :: Ordered.write v
  | _, _ => [0]

variable {types : Types} {t : RelationType} {a b r : Relation} {position position' : Nat}

theorem write_sortField {declared : DataType} {key : SchemaId} {field : Bytes}
    (h : Inline.write declared ((stored r).get? key) = .ok field) : field = sortField r key := by
  cases there : (stored r).get? key with
  | none =>
    rw [there] at h
    obtain rfl := Except.ok.inj h
    cases reserved : ImplicitKey.isReserved key with
    | true => simp [sortField, reserved]
    | false => simp [sortField, ← stored_get? reserved, there]
  | some v =>
    rw [there] at h
    obtain ⟨value, written, rfl⟩ := Inline.write_some_ok h
    obtain ⟨-, rfl⟩ := Attribute.write_ordered written
    obtain ⟨held, plain⟩ := get?_stored.1 there
    simp [sortField, Relation.get?, held, plain]

theorem writeAll_sortField {keys : List SchemaId} {fields : Bytes}
    (h : Inline.writeAll types (stored r).get? keys = .ok fields) :
    fields = keys.flatMap (sortField r) := by
  induction keys generalizing fields with
  | nil => exact (Except.ok.inj h).symm
  | cons key rest ih =>
    obtain ⟨declared, field, fields, -, written, others, rfl⟩ := Inline.writeAll_cons_ok h
    rw [List.flatMap_cons, ← ih others, write_sortField written]

theorem field_sortField {keys : List SchemaId} {fields : Bytes}
    (h : Inline.writeAll types (stored r).get? keys = .ok fields) :
    ∀ key ∈ keys, Inline.field types (stored r).get? key = .ok (sortField r key) := by
  induction keys generalizing fields with
  | nil => simp
  | cons key rest ih =>
    obtain ⟨declared, field, fields, typed, written, others, -⟩ := Inline.writeAll_cons_ok h
    refine List.forall_mem_cons.2 ⟨?_, ih others⟩
    rw [Inline.field_eq typed written, write_sortField written]

/-- Relations of one type that differ in a field have different keys, wherever they are seen from. -/
theorem key_ne_of_sortField {s : Schema} (reached : s.Reachable) (p : Parts s.lookup a position)
    (q : Parts s.lookup b position') (sameType : q.type = p.type) {key : SchemaId}
    (there : key ∈ p.type.sortKey) (apart : sortField a key ≠ sortField b key) : p.key ≠ q.key := by
  intro equal
  obtain ⟨o, headers, -⟩ := p.compares_headers reached q
  obtain ⟨sort, after, sorted, split, -⟩ := p.key_front (reached.sound p.known).2.unsorted
  obtain ⟨sort', after', sorted', split', -⟩ := q.key_front (reached.sound q.known).2.unsorted
  rw [sameType] at sorted'
  obtain ⟨fields, written, rfl⟩ := sortKey_ok sorted
  obtain ⟨fields', written', rfl⟩ := sortKey_ok sorted'
  have sorts := (Inline.compares_writeAll written written').turnBytes p.type.sortOrder
  have fronts := (headers.append sorts).prefix_iff after
    ⟨after', by rw [List.append_assoc, List.append_assoc, ← split, ← split', equal]⟩
  rw [Ordering.then_eq_eq, SortOrder.turn_eq_eq] at fronts
  have alike := (Inline.orderFields_eq_iff written written').1 fronts.2 key there
  rw [field_sortField written key there, field_sortField written' key there] at alike
  exact apart (Except.ok.inj alike)

open Slice

/-- A slice of points on what a relation has, seen as it is, finds the relation. -/
theorem build_points_contains {s : Schema} (reached : s.Reachable) (p : Parts s.lookup r position)
    {points : List Value}
    (own : List.Forall₂ (fun key v => (stored r).get? key = some v)
      (p.type.sortKey.take points.length) points) {d : Direction}
    (seen : p.type.isPropertyKey = true ∨ d = .ofPosition position) :
    ∃ slice, build s.lookup p.type d (points.map .point) none = .ok slice ∧
      slice.contains p.key = true := by
  obtain ⟨sort, after, sorted, key, -⟩ := p.key_front (reached.sound p.known).2.unsorted
  obtain ⟨fields, written, rfl⟩ := sortKey_ok sorted
  obtain ⟨front, rest, split, ends_eq⟩ := ends_points_of_held own written
  obtain ⟨slot, -, header_eq⟩ := RelationType.header_ok p.header_eq
  obtain ⟨stop, stop_eq⟩ := Header.above_exists header_eq (p.type.sortOrder.turnBytes front)
  obtain ⟨d', header, built⟩ := build_of_seen seen p.header_eq (points.map .point) none
  have room : points.length ≤ p.type.sortKey.length := by
    have size := own.length_eq
    rw [List.length_take] at size
    omega
  refine ⟨_, built.trans (directed_points room header ends_eq stop_eq), ?_⟩
  rw [key, Directed.cut split]
  exact (contains_above stop_eq (Compares.refl _) _).2 rfl

/-- In every schema that additions lead to, the key of a record holds the fields of the sort key one after
another, turned as the type sorts. Relations of the type that differ in a field have different keys, and a
slice of points on what a relation has under the first of its sort keys finds the relation. -/
theorem key_holds_sortFields {s : Schema} (reached : s.Reachable) (known : s.lookup.type? r.type = some t)
    {rec : Record} (written : encode s.lookup r position = .ok rec) :
    (∃ header after, t.header (.ofPosition position) = .ok header ∧
      rec.key = header ++ (t.sortOrder.turnBytes (t.sortKey.flatMap (sortField r)) ++ after)) ∧
    (∀ (other : Relation) (position' : Nat) (rec' : Record), other.type = r.type →
      encode s.lookup other position' = .ok rec' →
      ∀ key ∈ t.sortKey, sortField r key ≠ sortField other key → rec.key ≠ rec'.key) ∧
    ∀ (points : List Value) (d : Direction),
      List.Forall₂ (fun key v => ImplicitKey.isReserved key = false ∧ r.get? key = some v)
        (t.sortKey.take points.length) points →
      t.isPropertyKey = true ∨ d = .ofPosition position →
      ∃ slice, build s.lookup t d (points.map .point) none = .ok slice ∧ slice.contains rec.key = true := by
  obtain ⟨p, rfl⟩ := encode_ok written
  obtain rfl : p.type = t := Option.some.inj (p.known.symm.trans known)
  refine ⟨?_, ?_, ?_⟩
  · obtain ⟨sort, after, sorted, key, -⟩ := p.key_front (reached.sound p.known).2.unsorted
    obtain ⟨fields, fields_eq, rfl⟩ := sortKey_ok sorted
    rw [writeAll_sortField fields_eq] at key
    exact ⟨p.header, after, p.header_eq, key⟩
  · intro other position' rec' sameType written' key there apart
    obtain ⟨q, rfl⟩ := encode_ok written'
    have types_eq : q.type = p.type := Option.some.inj (q.known.symm.trans (sameType ▸ p.known))
    exact key_ne_of_sortField reached p q types_eq there apart
  · intro points d own seen
    refine build_points_contains reached p (own.imp fun key v held => ?_) seen
    rw [stored_get? held.1, held.2]

theorem key_holds_sortFields_annKnows :
    ∃ early late slice, encode Schema.acquaintance.lookup (annKnows "k" "bob" 2001) 0 = .ok early ∧
      encode Schema.acquaintance.lookup (annKnows "k" "bob" 2005) 0 = .ok late ∧ early.key ≠ late.key ∧
      build Schema.acquaintance.lookup Schema.knows .out [.point (.int 2001)] none = .ok slice ∧
      slice.contains early.key = true := by
  obtain ⟨early, written⟩ : ∃ rec,
      encode Schema.acquaintance.lookup (annKnows "k" "bob" 2001) 0 = .ok rec := ⟨_, rfl⟩
  obtain ⟨late, written'⟩ : ∃ rec,
      encode Schema.acquaintance.lookup (annKnows "k" "bob" 2005) 0 = .ok rec := ⟨_, rfl⟩
  have known : Schema.acquaintance.lookup.type? (annKnows "k" "bob" 2001).type = some Schema.knows := rfl
  obtain ⟨-, differ, found⟩ := key_holds_sortFields Schema.acquaintance_reachable known written
  have apart := differ (annKnows "k" "bob" 2005) 0 late rfl written' Schema.since.id (by decide) (by decide)
  obtain ⟨slice, built, inside⟩ := found [.int 2001] .out
    (.cons ⟨by decide, by decide⟩ .nil) (.inr rfl)
  exact ⟨early, late, slice, written, written', apart, built, inside⟩

end Record

namespace Schema

/-- Edges that would sort by how long they last. -/
def fleeting : RelationType :=
  { RelationType.edgeLabel (.ofNat 11) "knows" with sortKey := [ImplicitKey.ttl.id] }

def fleetingOnly : Schema := ⟨.ofList [(fleeting.id, fleeting)], .empty⟩

theorem fleetingOnly_reachable : fleetingOnly.Reachable := by
  have accepted : Schema.empty.addType fleeting = .ok fleetingOnly := rfl
  exact Reachable.empty.addType accepted

end Schema

namespace Record

/-- Ann knows Bob for a number of seconds. -/
def annKnowsFor (seconds : Int64) : Relation :=
  ⟨"k", Schema.fleeting.id, .edge "ann" "bob", .ofList [(ImplicitKey.ttl.id, .int seconds)]⟩

/-- A schema takes an implicit key as a sort key, but no value under it enters the key of a record. -/
theorem key_lacks_implicit :
    ∃ (s : Schema) (early late : Record) (header : Bytes) (slice : Slice), s.Reachable ∧
      s.lookup.type? Schema.fleeting.id = some Schema.fleeting ∧
      encode s.lookup (annKnowsFor 60) 0 = .ok early ∧ encode s.lookup (annKnowsFor 90) 0 = .ok late ∧
      early.key = late.key ∧ Ordered.write (.int 60) ≠ Ordered.write (.int 90) ∧
      Schema.fleeting.header .out = .ok header ∧
      ¬header ++ 1 :: Ordered.write (.int 60) <+: early.key ∧
      Slice.build s.lookup Schema.fleeting .out [.point (.int 60)] none = .ok slice ∧
      slice.contains early.key = false :=
  ⟨Schema.fleetingOnly, _, _, _, _, Schema.fleetingOnly_reachable,
    rfl, rfl, rfl, rfl, by decide, rfl, by decide, rfl, rfl⟩

end Record

end GraphStore
