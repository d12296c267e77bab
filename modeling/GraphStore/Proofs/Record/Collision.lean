import GraphStore.Proofs.Record.RoundTrip
import GraphStore.Proofs.Record.Slice

/-!
When two records share a key. The store holds a relation type to its multiplicity by nothing but the keys of
records: what may be there once has one key, and what may be there often has a key each. Keys never go on
from one another, so a key is found or it is not.
-/
namespace GraphStore

/-- A vertex has at most one relation of the type in a direction. -/
def RelationType.isAlone (t : RelationType) (d : Direction) : Bool :=
  if t.isPropertyKey then t.cardinality = .single else t.multiplicity.isUnique d

/-- The bytes of a field of a sort key. -/
def Inline.field (types : Types) (properties : SchemaId → Option Value) (key : SchemaId) :
    Except Fault Bytes := do
  Inline.write (← types.keyType key) (properties key)

namespace Record

/-- Relations of a type that are joined to the same: one vertex, or values that are stored alike. -/
def SameFar (t : RelationType) (d : Direction) (a b : Relation) : Prop :=
  match t.dataType? with
  | none => a.otherVertex d = b.otherVertex d
  | some type =>
    a.value.map (Attribute.write type .compact) = b.value.map (Attribute.write type .compact)

/-- What a type wants to be the same in two relations before one takes the place of the other. Implicit keys
are not stored, so in a sort key they count as missing. -/
inductive Agree (types : Types) (t : RelationType) (d : Direction) (a b : Relation) : Prop where
  | alone (only : t.isAlone d = true)
  | constrained (several : t.isAlone d = false) (bound : t.multiplicity.isConstrained = true)
      (far : SameFar t d a b)
  | unconstrained (free : t.multiplicity.isConstrained = false)
      (sortKey : ∀ key ∈ t.sortKey,
        Inline.field types (stored a).get? key = Inline.field types (stored b).get? key)
      (vertex : a.otherVertex d = b.otherVertex d) (id : a.id = b.id)

end Record

open Bytes (Compares)

theorem Layout.of_eq_unique {t : RelationType} {d : Direction} :
    Layout.of t d = .unique ↔ t.isAlone d = true := by
  cases property : t.isPropertyKey <;> cases several : t.multiplicity <;> cases d <;>
    simp [Layout.of, RelationType.isAlone, RelationType.cardinality, property, several,
      Multiplicity.isConstrained, Multiplicity.cardinality, Multiplicity.isUnique]

theorem Layout.isAlone_eq_false {t : RelationType} {d : Direction} (h : Layout.of t d ≠ .unique) :
    t.isAlone d = false := by
  rw [← Bool.not_eq_true, ← of_eq_unique]
  exact h

theorem Inline.field_eq {types : Types} {properties : SchemaId → Option Value} {key : SchemaId}
    {declared : DataType} {bytes : Bytes} (typed : types.keyType key = .ok declared)
    (written : write declared (properties key) = .ok bytes) :
    field types properties key = .ok bytes := by
  rw [field, typed]
  exact written

/-- Fields compare equal just if each of them is stored alike. -/
theorem Inline.orderFields_eq_iff {types : Types} {a b : SchemaId → Option Value}
    {keys : List SchemaId} {x y : Bytes} (left : writeAll types a keys = .ok x)
    (right : writeAll types b keys = .ok y) :
    orderFields a b keys = .eq ↔ ∀ key ∈ keys, field types a key = field types b key := by
  induction keys generalizing x y with
  | nil => simp [orderFields]
  | cons key rest ih =>
    obtain ⟨declared, bytes, _, typed, written, others, -⟩ := writeAll_cons_ok left
    obtain ⟨declared', bytes', _, typed', written', others', -⟩ := writeAll_cons_ok right
    obtain rfl := Except.ok.inj (typed.symm.trans typed')
    rw [orderFields, Ordering.then_eq_eq, (compares_write written written').eq_iff, ih others others',
      List.forall_mem_cons, field_eq typed written, field_eq typed written', Except.ok.injEq]

namespace Record

variable {types : Types} {t : RelationType} {d : Direction} {a b : Relation} {position position' : Nat}

theorem agree_iff_of_constrained (several : t.isAlone d = false)
    (bound : t.multiplicity.isConstrained = true) : Agree types t d a b ↔ SameFar t d a b := by
  constructor
  · rintro (only | ⟨-, -, far⟩ | ⟨free, -, -, -⟩)
    · simp [several] at only
    · exact far
    · simp [bound] at free
  · exact .constrained several bound

theorem agree_iff_of_free (several : t.isAlone d = false) (free : t.multiplicity.isConstrained = false) :
    Agree types t d a b ↔
      (∀ key ∈ t.sortKey, Inline.field types (stored a).get? key = Inline.field types (stored b).get? key) ∧
        a.otherVertex d = b.otherVertex d ∧ a.id = b.id := by
  constructor
  · rintro (only | ⟨-, bound, -⟩ | ⟨-, sortKey, vertex, id⟩)
    · simp [several] at only
    · simp [free] at bound
    · exact ⟨sortKey, vertex, id⟩
  · exact fun ⟨sortKey, vertex, id⟩ => .unconstrained free sortKey vertex id

/-- What is written for the far ends of two relations is the same just if they are. -/
theorem tip_eq_iff {far far' : FarEnd} {tip tip' : Bytes} (fits : farEnd t a d = .ok far)
    (fits' : farEnd t b d = .ok far') (written : far.write t = .ok tip)
    (written' : far'.write t = .ok tip') : tip = tip' ↔ SameFar t d a b := by
  obtain ⟨label, u, w, seen, seen', rfl, rfl⟩ | ⟨-, -, type, v, w, declared, holds, holds', rfl, rfl⟩ :=
    farEnds_ok fits fits'
  · obtain rfl := Except.ok.inj written
    obtain rfl := Except.ok.inj written'
    rw [SameFar, label, seen, seen', Option.some.injEq, ← (Bytes.compares_escapedText u w).eq_iff,
      Bytes.compare_eq_eq, Utf8.encode_inj]
  · rw [FarEnd.write, declared] at written written'
    simp only [SameFar, declared, holds, holds', Option.map_some, Option.some.injEq]
    rw [show Attribute.write type .compact v = .ok tip from written,
      show Attribute.write type .compact w = .ok tip' from written', Except.ok.injEq]

/-- No far end goes on from another. -/
theorem compares_tip {far far' : FarEnd} {tip tip' : Bytes} (fits : farEnd t a d = .ok far)
    (fits' : farEnd t b d = .ok far') (written : far.write t = .ok tip) (written' : far'.write t = .ok tip') :
    Compares tip tip' (compare tip tip') := by
  obtain ⟨-, u, w, -, -, rfl, rfl⟩ | ⟨-, -, type, v, w, declared, -, -, rfl, rfl⟩ := farEnds_ok fits fits'
  · obtain rfl := Except.ok.inj written
    obtain rfl := Except.ok.inj written'
    exact (Reading.takes_escapedText u).compares (Reading.takes_escapedText w)
  · rw [FarEnd.write, declared] at written written'
    exact Attribute.compares_write written written'

theorem orderOther_eq_iff {far far' : FarEnd} (fits : farEnd t a d = .ok far)
    (fits' : farEnd t b d = .ok far') :
    a.orderOther d b = .eq ↔ a.otherVertex d = b.otherVertex d := by
  obtain ⟨-, u, w, seen, seen', -⟩ | ⟨property, property', -⟩ := farEnds_ok fits fits'
  · simp [Relation.orderOther, seen, seen', Utf8.encode_inj]
  · simp [Relation.orderOther, a.otherVertex_of_property property, b.otherVertex_of_property property']

/-- A property is stored with its one vertex. -/
theorem Parts.position_of_propertyKey (p : Parts types a position)
    (property : p.type.isPropertyKey = true) : position = 0 := by
  have touched := p.touched
  obtain ⟨-, label, -⟩ | ⟨edge, -⟩ := farEnd_ok p.farEnd_eq
  · simp [RelationType.isPropertyKey, label] at property
  · cases kind : a.kind <;> simp_all [Relation.arity, Relation.isEdge]

/-- Keys under one header compare, and as equal just if the relations agree. -/
theorem Parts.compares_tail (p : Parts types a position) (q : Parts types b position')
    (sameType : q.type = p.type)
    (sameSide : Direction.ofPosition position' = Direction.ofPosition position) :
    ∃ tail tail' o, p.key = p.header ++ tail ∧ q.key = q.header ++ tail' ∧ Compares tail tail' o ∧
      (o = .eq ↔ Agree types p.type (.ofPosition position) a b) := by
  obtain ⟨tip, tip_eq, parts⟩ := keyAndEnds_ok p.keyAndEnds_eq
  obtain ⟨tip', tip_eq', parts'⟩ := keyAndEnds_ok q.keyAndEnds_eq
  have fits' := q.farEnd_eq
  rw [sameType, sameSide] at parts' fits'
  rw [sameType] at tip_eq'
  cases layout : Layout.of p.type (.ofPosition position) with
  | unique =>
    rw [layout] at parts parts'
    have only := Layout.of_eq_unique.1 layout
    exact ⟨[], [], .eq, by simp [parts.1], by simp [parts'.1], .refl [], fun _ => .alone only,
      fun _ => rfl⟩
  | constrained =>
    rw [layout] at parts parts'
    have bound := Layout.isConstrained (t := p.type) (d := .ofPosition position) (by rw [layout]; decide)
    have several := Layout.isAlone_eq_false (t := p.type) (d := .ofPosition position) (by simp [layout])
    have compared := compares_tip p.farEnd_eq fits' tip_eq tip_eq'
    refine ⟨tip, tip', _, parts.1, parts'.1, compared, ?_⟩
    rw [compared.eq_iff, tip_eq_iff p.farEnd_eq fits' tip_eq tip_eq', agree_iff_of_constrained several bound]
  | unconstrained =>
    have free := Layout.of_eq_unconstrained.1 layout
    have several := Layout.isAlone_eq_false (t := p.type) (d := .ofPosition position) (by simp [layout])
    obtain ⟨sort, sorted, key⟩ := p.key_eq free
    obtain ⟨sort', sorted', key'⟩ := q.key_eq (sameType ▸ free)
    rw [sameType] at sorted'
    rw [sameSide] at key'
    obtain ⟨fields, written, rfl⟩ := sortKey_ok sorted
    obtain ⟨fields', written', rfl⟩ := sortKey_ok sorted'
    have sorts := (Inline.compares_writeAll written written').turnBytes p.type.sortOrder
    have fars := compares_farKey p.farEnd_eq fits'
    have ids := Bytes.compares_escapedText a.id b.id
    refine ⟨_, _, _, key, key', sorts.append (fars.append ids), ?_⟩
    rw [Ordering.then_eq_eq, Ordering.then_eq_eq, SortOrder.turn_eq_eq,
      Inline.orderFields_eq_iff written written', orderOther_eq_iff p.farEnd_eq fits',
      Bytes.compare_eq_eq, Utf8.encode_inj, agree_iff_of_free several free]

/-- Headers of two records compare equal just for one type and one direction. -/
theorem Parts.compares_headers {s : Schema} (reached : s.Reachable) (p : Parts s.lookup a position)
    (q : Parts s.lookup b position') :
    ∃ o, Compares p.header q.header o ∧
      (o = .eq ↔ a.type = b.type ∧
        Direction.ofPosition position = Direction.ofPosition position') := by
  obtain ⟨named, -⟩ := reached.sound q.known
  obtain ⟨o, compared, same⟩ := compares_header reached (named ▸ q.known) q.header_eq p
  refine ⟨o, compared, same.trans ?_⟩
  rw [named]
  refine and_congr_right fun sameType => ⟨?_, fun side => .inr side.symm⟩
  rintro (property | side)
  · have types_eq : p.type = q.type :=
      Option.some.inj (p.known.symm.trans ((congrArg _ sameType).trans q.known))
    rw [p.position_of_propertyKey (types_eq ▸ property), q.position_of_propertyKey property]
  · exact side.symm

/-- In every schema that additions lead to, no key of a record goes on from another, and two relations share
a key just if they are of one type, are seen in one direction, and agree in what the type wants. -/
theorem key_eq_iff_agree {s : Schema} (reached : s.Reachable) {x y : Record}
    (left : encode s.lookup a position = .ok x) (right : encode s.lookup b position' = .ok y) :
    (x.key <+: y.key → x.key = y.key) ∧
      (x.key = y.key ↔ a.type = b.type ∧
        Direction.ofPosition position = Direction.ofPosition position' ∧
        ∃ t, s.lookup.type? a.type = some t ∧ Agree s.lookup t (.ofPosition position) a b) := by
  obtain ⟨p, rfl⟩ := encode_ok left
  obtain ⟨q, rfl⟩ := encode_ok right
  show (p.key <+: q.key → p.key = q.key) ∧ (p.key = q.key ↔ _)
  obtain ⟨o, headers, own⟩ := p.compares_headers reached q
  obtain ⟨sort, after, -, key, -⟩ := p.key_front (reached.sound p.known).2.unsorted
  obtain ⟨sort', after', -, key', -⟩ := q.key_front (reached.sound q.known).2.unsorted
  by_cases same : o = .eq
  · obtain ⟨sameType, side⟩ := own.1 same
    have sameTypes : q.type = p.type :=
      Option.some.inj (q.known.symm.trans ((congrArg _ sameType.symm).trans p.known))
    obtain ⟨tail, tail', o', whole, whole', tails, agree⟩ := p.compares_tail q sameTypes side.symm
    have compared := headers.append tails
    rw [← whole, ← whole'] at compared
    refine ⟨compared.eq_of_prefix, ?_⟩
    rw [← compared.eq_iff, Ordering.then_eq_eq, agree]
    constructor
    · exact fun ⟨_, agreed⟩ => ⟨sameType, side, p.type, p.known, agreed⟩
    · rintro ⟨-, -, t, known, agreed⟩
      obtain rfl := Option.some.inj (p.known.symm.trans known)
      exact ⟨same, agreed⟩
  · have compared := headers.extend same (sort ++ after) (sort' ++ after')
    rw [← key, ← key'] at compared
    refine ⟨compared.eq_of_prefix, ?_⟩
    rw [← compared.eq_iff]
    exact ⟨fun equal => absurd equal same, fun ⟨sameType, side, _⟩ => own.2 ⟨sameType, side⟩⟩

/-- A year that Ann has. A vertex has one year at most. -/
def annSince (id : RelationId) (year : Int64) : Relation :=
  ⟨id, Schema.since.id, .property "ann" (.int year), .empty⟩

theorem key_eq_iff_agree_annSince :
    ∃ x y, encode Schema.acquaintance.lookup (annSince "p" 2001) 0 = .ok x ∧
      encode Schema.acquaintance.lookup (annSince "q" 2005) 0 = .ok y ∧ x.key = y.key := by
  obtain ⟨x, left⟩ : ∃ x, encode Schema.acquaintance.lookup (annSince "p" 2001) 0 = .ok x := ⟨_, rfl⟩
  obtain ⟨y, right⟩ : ∃ y, encode Schema.acquaintance.lookup (annSince "q" 2005) 0 = .ok y := ⟨_, rfl⟩
  have told := key_eq_iff_agree Schema.acquaintance_reachable left right
  exact ⟨x, y, left, right, told.2.2 ⟨rfl, rfl, Schema.since, rfl, .alone rfl⟩⟩

end Record

end GraphStore
