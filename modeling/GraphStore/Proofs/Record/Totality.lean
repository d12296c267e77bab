import GraphStore.Proofs.Record.Parts
import GraphStore.Proofs.Schema.Growth

/-!
Which relations have records. What a schema promises of its types leaves the writers nothing to refuse but what
the relation itself gets wrong: its type, its position, its kind, or a value that its key does not take.
-/
namespace GraphStore

/-- No text and no byte string of the relation is too long for the length that stands before it. -/
structure Relation.Fits (r : Relation) : Prop where
  value : ∀ v, r.value = some v → Compact.fits v = true
  properties : ∀ key v, r.get? key = some v → Compact.fits v = true

/-- The same for the values that a record of the type stores in compact form. -/
structure Relation.FitsUnder (r : Relation) (t : RelationType) : Prop where
  value : ∀ v, r.value = some v → Compact.fits v = true
  loose : ∀ key v, r.get? key = some v → ImplicitKey.isReserved key = false → key ∉ t.inlinedKeys →
    Compact.fits v = true

theorem Relation.Fits.under {r : Relation} (fits : r.Fits) (t : RelationType) : r.FitsUnder t :=
  ⟨fits.value, fun key v there _ _ => fits.properties key v there⟩

/-- A key takes a value: it is known, and its type is that of the value or takes any. -/
def Types.Takes (types : Types) (key : SchemaId) (v : Value) : Prop :=
  ∃ declared, types.keyType key = .ok declared ∧ declared.accepts v = true

namespace Record

/-- A relation that is in order for its type, and touches a vertex at the position. -/
structure Storable (types : Types) (r : Relation) (position : Nat) (t : RelationType) : Prop where
  known : types.type? r.type = some t
  touched : position < r.arity
  /-- Edges have labels as types, properties have keys. -/
  category : r.isEdge = !t.isPropertyKey
  value : ∀ v type, r.value = some v → t.dataType? = some type → type.accepts v = true
  properties : ∀ key v, r.get? key = some v → types.Takes key v

section Writers

variable {types : Types} {t : RelationType} {r : Relation} {position : Nat}

theorem checkProperties_ok_iff {l : List (SchemaId × Value)} :
    checkProperties types l = .ok () ↔ ∀ e ∈ l, types.Takes e.1 e.2 := by
  induction l with
  | nil => simp [checkProperties]
  | cons e rest ih =>
    obtain ⟨key, v⟩ := e
    rw [List.forall_mem_cons, checkProperties]
    cases typed : types.keyType key with
    | error fault => simp [Types.Takes, typed]
    | ok declared =>
      cases accepted : declared.accepts v with
      | true => simpa [Types.Takes, typed, accepted] using ih
      | false => simp [Types.Takes, typed, accepted]

theorem writeAll_exists {values : SchemaId → Option Value} {keys : List SchemaId}
    (inlined : ∀ key ∈ keys, ∃ type, types.keyType key = .ok type ∧ type ≠ .generic)
    (takes : ∀ key v, values key = some v → types.Takes key v) :
    ∃ bytes, Inline.writeAll types values keys = .ok bytes := by
  induction keys with
  | nil => exact ⟨[], rfl⟩
  | cons key rest ih =>
    obtain ⟨⟨type, known, typed⟩, others⟩ := List.forall_mem_cons.1 inlined
    obtain ⟨fields, written⟩ := ih others
    have field : ∃ bytes, Inline.write type (values key) = .ok bytes := by
      cases there : values key with
      | none => exact ⟨[0], rfl⟩
      | some v =>
        obtain ⟨declared, known', accepted⟩ := takes key v there
        obtain rfl := Except.ok.inj (known.symm.trans known')
        obtain ⟨bytes, made⟩ := Attribute.write_ordered_exists typed accepted
        exact ⟨1 :: bytes, by simp only [Inline.write, made]⟩
    obtain ⟨bytes, made⟩ := field
    exact ⟨_, bind_ok_iff.2 ⟨type, known, bind_ok_iff.2 ⟨bytes, made,
      bind_ok_iff.2 ⟨fields, written, rfl⟩⟩⟩⟩

theorem writeLoose_exists_iff {l : List (SchemaId × Value)} : (∃ bytes, writeLoose types t l = .ok bytes) ↔
    ∀ e ∈ l, e.1 ∉ t.inlinedKeys → types.Takes e.1 e.2 ∧ Compact.fits e.2 = true := by
  induction l with
  | nil => simp [writeLoose]
  | cons e rest ih =>
    obtain ⟨key, v⟩ := e
    rw [List.forall_mem_cons, ← ih, writeLoose]
    by_cases inlined : key ∈ t.inlinedKeys
    · simp [inlined]
    · rw [if_neg inlined, imp_iff_right inlined]
      constructor
      · rintro ⟨bytes, h⟩
        obtain ⟨declared, known, h⟩ := bind_ok_iff.1 h
        obtain ⟨field, made, h⟩ := bind_ok_iff.1 h
        obtain ⟨others, written, -⟩ := bind_ok_iff.1 h
        obtain ⟨accepted, fits⟩ := Attribute.write_compact_exists_iff.1 ⟨field, made⟩
        exact ⟨⟨⟨declared, known, accepted⟩, fits⟩, others, written⟩
      · rintro ⟨⟨⟨declared, known, accepted⟩, fits⟩, others, written⟩
        obtain ⟨field, made⟩ := Attribute.write_compact_exists_iff.2 ⟨accepted, fits⟩
        exact ⟨_, bind_ok_iff.2 ⟨declared, known, bind_ok_iff.2 ⟨field, made,
          bind_ok_iff.2 ⟨others, written, rfl⟩⟩⟩⟩

theorem header_exists (inRange : t.id.toNat ≤ SchemaId.greatest) (position : Nat) :
    ∃ header, t.header (.ofPosition position) = .ok header := by
  have slot : ∃ slot, t.slot (.ofPosition position) = .ok slot := by
    rw [RelationType.slot, Direction.ofPosition]
    split
    · exact ⟨_, rfl⟩
    · split <;> exact ⟨_, rfl⟩
  obtain ⟨slot, there⟩ := slot
  simp only [RelationType.header, there]
  exact Header.write_exists_iff.2 inRange

/-- The far end of a relation that is in order is there, and can be written. -/
theorem farEnd_exists (h : Storable types r position t) (fits : r.FitsUnder t) :
    ∃ far, farEnd t r (.ofPosition position) = .ok far ∧ ∃ tip, far.write t = .ok tip := by
  have category := h.category
  cases kind : r.kind with
  | edge outVertex inVertex =>
    have label : t.dataType? = none := by
      simpa [Relation.isEdge, kind, RelationType.isPropertyKey] using category
    have seen : ∃ other, r.otherVertex (.ofPosition position) = some other := by
      by_cases first : position = 0 <;> simp [Relation.otherVertex, kind, Direction.ofPosition, first]
    obtain ⟨other, seen⟩ := seen
    have bare : r.value = none := by rw [Relation.value, kind]
    exact ⟨.vertex other, by rw [farEnd, bare, seen, label], _, rfl⟩
  | property vertex v =>
    have key : t.isPropertyKey = true := by simpa [Relation.isEdge, kind] using category
    obtain ⟨type, declared⟩ := Option.isSome_iff_exists.1 key
    have holds : r.value = some v := by rw [Relation.value, kind]
    refine ⟨.value v, by rw [farEnd, holds, declared], ?_⟩
    rw [FarEnd.write, declared]
    exact Attribute.write_compact_exists_iff.2 ⟨h.value v type holds declared, fits.value v holds⟩

theorem keyAndEnds_exists {far : FarEnd} {tip sort : Bytes} (written : far.write t = .ok tip)
    (sorted : sortKey types t r = .ok sort) (d : Direction) (header : Bytes) :
    ∃ parts, keyAndEnds types t r d far header = .ok parts := by
  rw [keyAndEnds]
  split
  · exact ⟨_, bind_ok_iff.2 ⟨tip, written, rfl⟩⟩
  · exact ⟨_, bind_ok_iff.2 ⟨tip, written, rfl⟩⟩
  · exact ⟨_, bind_ok_iff.2 ⟨sort, sorted, bind_ok_iff.2 ⟨tip, written, rfl⟩⟩⟩

end Writers

variable {s : Schema} {t : RelationType} {r : Relation} {position : Nat} {rec : Record}

/-- If a schema keeps its promises of the type, a relation in order has a record. -/
theorem encode_exists (sound : s.Sound t) (h : Storable s.lookup r position t) (fits : r.FitsUnder t) :
    ∃ rec, encode s.lookup r position = .ok rec := by
  have takes : ∀ key v, (stored r).get? key = some v → s.lookup.Takes key v :=
    fun key v there => h.properties key v (get?_stored.1 there).1
  have inlined : ∀ keys, (∀ key ∈ keys, key ∈ t.inlinedKeys) →
      ∃ bytes, Inline.writeAll s.lookup (stored r).get? keys = .ok bytes :=
    fun keys listed => writeAll_exists (fun key there => sound.inlined key (listed key there)) takes
  obtain ⟨far, far_eq, tip, tip_eq⟩ := farEnd_exists h fits
  obtain ⟨header, header_eq⟩ := header_exists sound.inRange position
  obtain ⟨fields, fields_eq⟩ := inlined t.sortKey fun _ there => List.mem_append_left _ there
  have sorted : ∃ sort, sortKey s.lookup t r = .ok sort := ⟨_, bind_ok_iff.2 ⟨fields, fields_eq, rfl⟩⟩
  obtain ⟨sort, sort_eq⟩ := sorted
  obtain ⟨parts, parts_eq⟩ := keyAndEnds_exists tip_eq sort_eq (.ofPosition position) header
  obtain ⟨signature, signature_eq⟩ := inlined t.signature fun _ there => List.mem_append_right _ there
  obtain ⟨loose, loose_eq⟩ : ∃ bytes, writeLoose s.lookup t (stored r).entries = .ok bytes := by
    refine writeLoose_exists_iff.2 fun e there apart => ?_
    have held := KeyMap.mem_entries.1 there
    obtain ⟨carried, free⟩ := get?_stored.1 held
    exact ⟨takes e.1 e.2 held, fits.loose e.1 e.2 carried free apart⟩
  have known : s.lookup.existing r.type = .ok t := by simp only [Types.existing, h.known]
  have checked : checkProperties s.lookup r.properties.entries = .ok () :=
    checkProperties_ok_iff.2 fun e there => h.properties e.1 e.2 (KeyMap.mem_entries.1 there)
  refine ⟨⟨parts.1, parts.2 ++ signature ++ loose,
    r.properties.filter fun key _ => ImplicitKey.isReserved key⟩, bind_ok_iff.2 ⟨t, known, ?_⟩⟩
  rw [if_neg (Nat.not_le.2 h.touched)]
  exact bind_ok_iff.2 ⟨far, far_eq, bind_ok_iff.2 ⟨(), checked, bind_ok_iff.2 ⟨header, header_eq,
    bind_ok_iff.2 ⟨parts, parts_eq, bind_ok_iff.2 ⟨signature, signature_eq,
      bind_ok_iff.2 ⟨loose, loose_eq, rfl⟩⟩⟩⟩⟩⟩

theorem checked_of_encode {types : Types} (h : encode types r position = .ok rec) :
    checkProperties types r.properties.entries = .ok () := by
  obtain ⟨t, -, h⟩ := bind_ok_iff.1 h
  split at h
  · cases h
  obtain ⟨far, -, h⟩ := bind_ok_iff.1 h
  obtain ⟨⟨⟩, checked, -⟩ := bind_ok_iff.1 h
  exact checked

/-- What has a record is in order, whatever the schema, and fits. -/
theorem storable_of_encode {types : Types} (h : encode types r position = .ok rec) :
    ∃ t, Storable types r position t ∧ r.FitsUnder t := by
  obtain ⟨p, -⟩ := encode_ok h
  have properties : ∀ key v, r.get? key = some v → types.Takes key v := fun key v there =>
    checkProperties_ok_iff.1 (checked_of_encode h) (key, v) (KeyMap.mem_entries.2 there)
  have loose : ∀ key v, r.get? key = some v → ImplicitKey.isReserved key = false →
      key ∉ p.type.inlinedKeys → Compact.fits v = true := fun key v carried free apart =>
    (writeLoose_exists_iff.1 ⟨p.loose, p.loose_eq⟩ (key, v)
      (KeyMap.mem_entries.2 (get?_stored.2 ⟨carried, free⟩)) apart).2
  obtain ⟨tip, written, -⟩ := keyAndEnds_ok p.keyAndEnds_eq
  obtain ⟨edge, label, -⟩ | ⟨property, ⟨type, declared⟩, v, holds, far⟩ := farEnd_ok p.farEnd_eq
  · have bare : r.value = none := by cases kind : r.kind <;> simp_all [Relation.value, Relation.isEdge]
    refine ⟨p.type, ⟨p.known, p.touched, ?_, ?_, properties⟩, ?_, loose⟩
    · simp [edge, RelationType.isPropertyKey, label]
    · simp [bare]
    · simp [bare]
  · rw [far, FarEnd.write, declared] at written
    obtain ⟨accepted, fits⟩ := Attribute.write_compact_exists_iff.1 ⟨tip, written⟩
    refine ⟨p.type, ⟨p.known, p.touched, ?_, ?_, properties⟩, ?_, loose⟩
    · simp [property, RelationType.isPropertyKey, declared]
    · rintro v' type' holds' declared'
      obtain rfl := Option.some.inj (holds.symm.trans holds')
      obtain rfl := Option.some.inj (declared.symm.trans declared')
      exact accepted
    · rintro v' holds'
      obtain rfl := Option.some.inj (holds.symm.trans holds')
      exact fits

end Record

namespace Schema

variable {s : Schema} {r : Relation} {position : Nat}

theorem Reachable.encode_ok_iff (reached : s.Reachable) (fits : r.Fits) :
    (∃ rec, Record.encode s.lookup r position = .ok rec) ↔ ∃ t, Record.Storable s.lookup r position t := by
  constructor
  · rintro ⟨rec, encoded⟩
    obtain ⟨t, storable, -⟩ := Record.storable_of_encode encoded
    exact ⟨t, storable⟩
  · rintro ⟨t, storable⟩
    exact Record.encode_exists (reached.sound storable.known).2 storable (fits.under t)

/-- Whatever calls a schema has seen, it is well formed, and under it just the relations in order have records,
as far as their values fit. -/
theorem after_encodes (calls : List SchemaCall) : (after calls).WellFormed ∧
    ∀ (r : Relation) (position : Nat), r.Fits →
      ((∃ rec, Record.encode (after calls).lookup r position = .ok rec) ↔
        ∃ t, Record.Storable (after calls).lookup r position t) :=
  ⟨(reachable_after calls).wellFormed, fun _ _ fits => (reachable_after calls).encode_ok_iff fits⟩

theorem after_encodes_annKnows : (Record.annKnows "k" "bob" 2001).Fits ∧
    ∃ rec, Record.encode (after [.type since, .type since, .type knows]).lookup
      (Record.annKnows "k" "bob" 2001) 1 = .ok rec := by
  have bare (v : Value) : (Record.annKnows "k" "bob" 2001).value ≠ some v := by
    simp [Record.annKnows, Relation.value]
  have fits : (Record.annKnows "k" "bob" 2001).Fits := by
    refine ⟨fun v holds => absurd holds (bare v), fun key v there => ?_⟩
    rw [(Record.get?_annKnows there).2]
    rfl
  have storable : Record.Storable (after [.type since, .type since, .type knows]).lookup
      (Record.annKnows "k" "bob" 2001) 1 knows := by
    refine ⟨rfl, by decide, rfl, fun v _ holds => absurd holds (bare v), fun key v there => ?_⟩
    obtain ⟨rfl, rfl⟩ := Record.get?_annKnows there
    exact ⟨.int, rfl, rfl⟩
  exact ⟨fits, ((after_encodes _).2 _ 1 fits).2 ⟨knows, storable⟩⟩

end Schema

end GraphStore
