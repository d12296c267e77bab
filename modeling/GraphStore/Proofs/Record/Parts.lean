import GraphStore.Proofs.Attempt
import GraphStore.Proofs.Codec.Attribute
import GraphStore.Proofs.Record.Header
import GraphStore.Proofs.Schema
import GraphStore.Record

/-!
A record in its parts. Whatever `Record.encode` gives is put together from a header, the two ends, the
signature and the loose properties, each as its own writer leaves it.
-/
namespace GraphStore

theorem RelationType.header_ok {t : RelationType} {d : Direction} {header : Bytes}
    (h : t.header d = .ok header) :
    ∃ slot, t.slot d = .ok slot ∧ Header.write ⟨t.id, slot, t.invisible⟩ = .ok header := by
  simp only [RelationType.header] at h
  split at h
  · cases h
  · next slot there => exact ⟨slot, there, h⟩

/-- A slot tells properties from edges, and the direction of an edge. -/
theorem RelationType.slot_ok {t : RelationType} {d : Direction} {slot : Slot}
    (h : t.slot d = .ok slot) :
    if t.isPropertyKey then slot = .property else slot ≠ .property ∧ slot.direction = d := by
  simp only [RelationType.slot] at h
  split at h
  · next property => simpa [property] using (Except.ok.inj h).symm
  · next edge =>
    rw [if_neg edge]
    cases d <;> cases h <;> exact ⟨nofun, rfl⟩

namespace SortOrder

/-- How a sort key of the order stands in a record. -/
def turnBytes : SortOrder → Bytes → Bytes
  | ascending, fields => fields
  | descending, fields => Bytes.flip fields

theorem turnBytes_append (order : SortOrder) (x y : Bytes) :
    order.turnBytes (x ++ y) = order.turnBytes x ++ order.turnBytes y := by
  cases order
  · rfl
  · exact List.map_append

def turn : SortOrder → Ordering → Ordering
  | ascending, o => o
  | descending, o => o.swap

@[simp] theorem turn_turn (order : SortOrder) (o : Ordering) : order.turn (order.turn o) = o := by
  cases order <;> cases o <;> rfl

@[simp] theorem turn_eq_eq (order : SortOrder) (o : Ordering) : order.turn o = .eq ↔ o = .eq := by
  cases order <;> cases o <;> simp [turn]

end SortOrder

theorem Bytes.Compares.turnBytes {x y : Bytes} {o : Ordering} (h : Compares x y o)
    (order : SortOrder) : Compares (order.turnBytes x) (order.turnBytes y) (order.turn o) := by
  cases order with
  | ascending => exact h
  | descending => exact h.flip

theorem Layout.of_eq_unconstrained {t : RelationType} {d : Direction} :
    Layout.of t d = .unconstrained ↔ t.multiplicity.isConstrained = false := by
  simp only [Layout.of, RelationType.cardinality]
  cases t.multiplicity <;> cases t.isPropertyKey <;>
    simp [Multiplicity.isConstrained, Multiplicity.cardinality] <;> cases d <;>
    simp [Multiplicity.isUnique]

theorem Layout.isConstrained {t : RelationType} {d : Direction} (h : Layout.of t d ≠ .unconstrained) :
    t.multiplicity.isConstrained = true :=
  Bool.eq_true_of_not_eq_false (mt Layout.of_eq_unconstrained.2 h)

namespace Inline

variable {declared : DataType} {types : Types} {properties : SchemaId → Option Value}

theorem write_some_ok {v : Value} {field : Bytes} (h : write declared (some v) = .ok field) :
    ∃ bytes, Attribute.write declared .ordered v = .ok bytes ∧ field = 1 :: bytes := by
  simp only [write] at h
  split at h
  · next bytes written => exact ⟨bytes, written, (Except.ok.inj h).symm⟩
  · cases h

theorem writeAll_cons_ok {key : SchemaId} {rest : List SchemaId} {bytes : Bytes}
    (h : writeAll types properties (key :: rest) = .ok bytes) :
    ∃ declared field fields, types.keyType key = .ok declared ∧
      write declared (properties key) = .ok field ∧ writeAll types properties rest = .ok fields ∧
      bytes = field ++ fields := by
  rw [writeAll] at h
  obtain ⟨declared, typed, h⟩ := bind_ok_iff.1 h
  obtain ⟨field, written, h⟩ := bind_ok_iff.1 h
  obtain ⟨fields, others, h⟩ := bind_ok_iff.1 h
  exact ⟨declared, field, fields, typed, written, others, (pure_ok_iff.1 h).symm⟩

end Inline

theorem Relation.otherVertex_of_property {r : Relation} (h : r.isEdge = false) (d : Direction) :
    r.otherVertex d = none := by
  cases kind : r.kind <;> simp_all [isEdge, otherVertex]

namespace Record

theorem get?_stored {r : Relation} {key : SchemaId} {v : Value} :
    (stored r).get? key = some v ↔
      r.properties.get? key = some v ∧ ImplicitKey.isReserved key = false := by
  rw [stored, KeyMap.get?_filter, Option.filter_eq_some_iff]
  simp

/-- What goes into the record of a relation, and who wrote it. -/
structure Parts (types : Types) (r : Relation) (position : Nat) where
  type : RelationType
  far : FarEnd
  header : Bytes
  key : Bytes
  ends : Bytes
  signature : Bytes
  loose : Bytes
  known : types.type? r.type = some type
  touched : position < r.arity
  farEnd_eq : farEnd type r (.ofPosition position) = .ok far
  header_eq : type.header (.ofPosition position) = .ok header
  keyAndEnds_eq : keyAndEnds types type r (.ofPosition position) far header = .ok (key, ends)
  signature_eq : Inline.writeAll types (stored r).get? type.signature = .ok signature
  loose_eq : writeLoose types type (stored r).entries = .ok loose

namespace Parts

variable {types : Types} {r : Relation} {position : Nat}

/-- The record that the parts make. -/
def record (p : Parts types r position) : Record :=
  ⟨p.key, p.ends ++ p.signature ++ p.loose, r.properties.filter fun key _ => ImplicitKey.isReserved key⟩

end Parts

theorem encode_ok {types : Types} {r : Relation} {position : Nat} {rec : Record}
    (h : encode types r position = .ok rec) : ∃ p : Parts types r position, p.record = rec := by
  simp only [encode] at h
  obtain ⟨t, known, h⟩ := bind_ok_iff.1 h
  split at h
  · cases h
  next touched =>
  obtain ⟨far, far_eq, h⟩ := bind_ok_iff.1 h
  obtain ⟨-, -, h⟩ := bind_ok_iff.1 h
  obtain ⟨header, header_eq, h⟩ := bind_ok_iff.1 h
  obtain ⟨⟨key, ends⟩, ends_eq, h⟩ := bind_ok_iff.1 h
  obtain ⟨signature, signature_eq, h⟩ := bind_ok_iff.1 h
  obtain ⟨loose, loose_eq, h⟩ := bind_ok_iff.1 h
  exact ⟨⟨t, far, header, key, ends, signature, loose, Types.existing_ok known, by omega, far_eq,
    header_eq, ends_eq, signature_eq, loose_eq⟩, Except.ok.inj h⟩

/-- The far end of a relation is a vertex just if its type is a label of edges. -/
theorem farEnd_ok {t : RelationType} {r : Relation} {d : Direction} {far : FarEnd}
    (h : farEnd t r d = .ok far) :
    (r.isEdge = true ∧ t.dataType? = none ∧ ∃ other, r.otherVertex d = some other ∧ far = .vertex other) ∨
      (r.isEdge = false ∧ (∃ type, t.dataType? = some type) ∧ ∃ v, r.value = some v ∧ far = .value v) := by
  simp only [farEnd] at h
  split at h
  · next edge seen label =>
    refine .inl ⟨?_, label, _, seen, (Except.ok.inj h).symm⟩
    cases kind : r.kind <;> simp_all [Relation.value, Relation.isEdge]
  · next v type holds declared =>
    refine .inr ⟨?_, ⟨_, declared⟩, _, holds, (Except.ok.inj h).symm⟩
    cases kind : r.kind <;> simp_all [Relation.value, Relation.isEdge]
  · cases h

/-- Two relations of one type lead to vertices both, or to values both. -/
theorem farEnds_ok {t : RelationType} {a b : Relation} {d : Direction} {far far' : FarEnd}
    (left : farEnd t a d = .ok far) (right : farEnd t b d = .ok far') :
    (t.dataType? = none ∧ ∃ u w, a.otherVertex d = some u ∧ b.otherVertex d = some w ∧
        far = .vertex u ∧ far' = .vertex w) ∨
      (a.isEdge = false ∧ b.isEdge = false ∧ ∃ type v w, t.dataType? = some type ∧
        a.value = some v ∧ b.value = some w ∧ far = .value v ∧ far' = .value w) := by
  obtain ⟨-, label, u, seen, rfl⟩ | ⟨property, ⟨type, declared⟩, v, holds, rfl⟩ := farEnd_ok left
  · obtain ⟨-, -, w, seen', rfl⟩ | ⟨-, ⟨type, declared⟩, -⟩ := farEnd_ok right
    · exact .inl ⟨label, u, w, seen, seen', rfl, rfl⟩
    · rw [label] at declared
      cases declared
  · obtain ⟨-, label, -⟩ | ⟨property', -, w, holds', rfl⟩ := farEnd_ok right
    · rw [label] at declared
      cases declared
    · exact .inr ⟨property, property', type, v, w, declared, holds, holds', rfl, rfl⟩

theorem sortKey_ok {types : Types} {t : RelationType} {r : Relation} {sort : Bytes}
    (h : sortKey types t r = .ok sort) :
    ∃ fields, Inline.writeAll types (stored r).get? t.sortKey = .ok fields ∧
      sort = t.sortOrder.turnBytes fields := by
  obtain ⟨fields, written, h⟩ := bind_ok_iff.1 h
  refine ⟨fields, written, ?_⟩
  rw [← pure_ok_iff.1 h]
  cases t.sortOrder <;> rfl

theorem sortKey_nil {types : Types} {t : RelationType} (bare : t.sortKey = []) (r : Relation) :
    sortKey types t r = .ok [] := by
  rw [sortKey, bare]
  cases t.sortOrder <;> rfl

/-- Key and ends by layout. -/
theorem keyAndEnds_ok {types : Types} {t : RelationType} {r : Relation} {d : Direction} {far : FarEnd}
    {header key ends : Bytes} (h : keyAndEnds types t r d far header = .ok (key, ends)) :
    ∃ tip, far.write t = .ok tip ∧
      match Layout.of t d with
      | .unique => key = header ∧ ends = tip ++ Bytes.escapedText r.id
      | .constrained => key = header ++ tip ∧ ends = Bytes.escapedText r.id
      | .unconstrained => ∃ sort, sortKey types t r = .ok sort ∧
          if r.isEdge then key = header ++ sort ++ tip ++ Bytes.escapedText r.id ∧ ends = []
          else key = header ++ sort ++ Bytes.escapedText r.id ∧ ends = tip := by
  simp only [keyAndEnds] at h
  cases layout : Layout.of t d with
  | unique =>
    rw [layout] at h
    obtain ⟨tip, written, h⟩ := bind_ok_iff.1 h
    simp only [pure_ok_iff, Prod.mk.injEq] at h
    exact ⟨tip, written, h.1.symm, h.2.symm⟩
  | constrained =>
    rw [layout] at h
    obtain ⟨tip, written, h⟩ := bind_ok_iff.1 h
    simp only [pure_ok_iff, Prod.mk.injEq] at h
    exact ⟨tip, written, h.1.symm, h.2.symm⟩
  | unconstrained =>
    rw [layout] at h
    obtain ⟨sort, sorted, h⟩ := bind_ok_iff.1 h
    obtain ⟨tip, written, h⟩ := bind_ok_iff.1 h
    refine ⟨tip, written, sort, sorted, ?_⟩
    rw [pure_ok_iff] at h
    cases edge : r.isEdge <;> rw [edge] at h <;> cases h <;> exact ⟨rfl, rfl⟩

/-- The slot in the header tells the category and the direction that the relation was seen in. -/
theorem slot_seen {types : Types} {r : Relation} {position : Nat} (p : Parts types r position) {slot : Slot}
    (h : p.type.slot (.ofPosition position) = .ok slot) :
    p.type.isPropertyKey = decide (slot = .property) ∧ slot.direction = .ofPosition position := by
  have seen := RelationType.slot_ok h
  obtain ⟨-, label, -⟩ | ⟨property, ⟨type, declared⟩, -⟩ := farEnd_ok p.farEnd_eq
  · have edge : p.type.isPropertyKey = false := by simp [RelationType.isPropertyKey, label]
    rw [edge, if_neg Bool.false_ne_true] at seen
    exact ⟨by simp [edge, seen.1], seen.2⟩
  · have key : p.type.isPropertyKey = true := by simp [RelationType.isPropertyKey, declared]
    rw [key, if_pos rfl] at seen
    have first : position = 0 := by
      have touched := p.touched
      cases kind : r.kind <;> simp_all [Relation.arity, Relation.isEdge]
    simp [key, seen, first, Direction.ofPosition, Slot.direction]

/-- Ann has known a person since a year. -/
def annKnows (id : RelationId) (person : VertexId) (year : Int64) : Relation :=
  ⟨id, Schema.knows.id, .edge "ann" person, .ofList [(Schema.since.id, .int year)]⟩

theorem get?_annKnows {id : RelationId} {person : VertexId} {year : Int64} {key : SchemaId} {v : Value}
    (there : (annKnows id person year).get? key = some v) : key = Schema.since.id ∧ v = .int year := by
  have entry := KeyMap.mem_entries.2 there
  simpa [annKnows, KeyMap.ofList, KeyMap.insert, KeyMap.empty, KeyMap.insertEntry] using entry

end Record

end GraphStore
