import GraphStore.Proofs.Record.Parts
import GraphStore.Record.Decoded

/-!
A record says what its relation was. The decoder meets the parts in the order in which they were put
together, and each reader stops where its part ends, so nothing but the precision that value forms give
up is lost.
-/
namespace GraphStore

open Reading

/-- What a record keeps of a property. Properties under implicit keys do not enter its bytes. -/
def Value.keptUnder (t : RelationType) (key : SchemaId) (v : Value) : Value :=
  if ImplicitKey.isReserved key then v
  else if key ∈ t.inlinedKeys then v.kept .ordered
  else v.kept .compact

def RelationKind.kept : RelationKind → RelationKind
  | edge outVertex inVertex => edge outVertex inVertex
  | property vertex value => property vertex (value.kept .compact)

/-- What a record of a type keeps of a relation. -/
def Relation.kept (t : RelationType) (r : Relation) : Relation :=
  { r with kind := r.kind.kept, properties := r.properties.mapKeyed (Value.keptUnder t) }

/-- Outside of its metadata a relation holds no date beyond all milliseconds. -/
structure Relation.IsWithin (r : Relation) : Prop where
  value : ∀ v, r.value = some v → v.isBeyond = false
  properties : ∀ key v, (Record.stored r).get? key = some v → v.isBeyond = false

/-- What a record of a type leads with, the value of the relation and its sort key, holds no date beyond all
milliseconds. -/
structure Relation.LeadsWithin (t : RelationType) (r : Relation) : Prop where
  value : ∀ v, r.value = some v → v.isBeyond = false
  sortKey : ∀ key ∈ t.sortKey, ∀ v, (Record.stored r).get? key = some v → v.isBeyond = false

theorem Relation.IsWithin.leads {r : Relation} (within : r.IsWithin) (t : RelationType) : r.LeadsWithin t :=
  ⟨within.value, fun key _ => within.properties key⟩

namespace Inline

/-- The fields of some keys that are there, as they are read back. -/
def present (properties : SchemaId → Option Value) (keys : List SchemaId) : List (SchemaId × Value) :=
  keys.filterMap fun key => (properties key).map fun v => (key, v.kept .ordered)

variable {types : Types} {properties : SchemaId → Option Value}

theorem takes_read {declared : DataType} {field : Option Value} {bytes : Bytes}
    (within : ∀ v, field = some v → v.isBeyond = false) (h : write declared field = .ok bytes) :
    Takes (read declared) bytes (field.map fun v => v.kept .ordered) := by
  cases field with
  | none =>
    obtain rfl := Except.ok.inj h
    exact fun _ => rfl
  | some v =>
    obtain ⟨value, written, rfl⟩ := write_some_ok h
    exact (takes_byte 1).bind ((Attribute.takes_write written (within v rfl)).map some)

theorem takes_readAll {keys : List SchemaId} {bytes : Bytes}
    (within : ∀ key ∈ keys, ∀ v, properties key = some v → v.isBeyond = false)
    (h : writeAll types properties keys = .ok bytes) :
    Takes (readAll types keys) bytes (present properties keys) := by
  induction keys generalizing bytes with
  | nil =>
    obtain rfl := Except.ok.inj h
    exact Takes.pure []
  | cons key rest ih =>
    obtain ⟨declared, field, fields, typed, written, others, rfl⟩ := writeAll_cons_ok h
    obtain ⟨first, later⟩ := List.forall_mem_cons.1 within
    refine Takes.bind_lift typed ((takes_read first written).bind ?_)
    have taken := ih later others
    cases there : properties key with
    | none => simpa [present, there] using taken.map id
    | some v => simpa [present, there] using taken.map ((key, v.kept .ordered) :: ·)

theorem mem_present {keys : List SchemaId} {e : SchemaId × Value} :
    e ∈ present properties keys ↔
      e.1 ∈ keys ∧ ∃ v, properties e.1 = some v ∧ e.2 = v.kept .ordered := by
  simp only [present, List.mem_filterMap, Option.map_eq_some_iff]
  constructor
  · rintro ⟨key, member, v, there, rfl⟩
    exact ⟨member, v, there, rfl⟩
  · rintro ⟨member, v, there, same⟩
    exact ⟨e.1, member, v, there, Prod.ext rfl same.symm⟩

end Inline

/-- Turned bytes start with what was turned. -/
theorem Bytes.flip_take_flip {x : Bytes} {limit : Nat} (room : x.length ≤ limit) (rest : Bytes) :
    Bytes.flip ((Bytes.flip x ++ rest).take limit) = x ++ Bytes.flip (rest.take (limit - x.length)) := by
  rw [List.take_append, List.take_of_length_le (by simpa [Bytes.flip] using room)]
  have twice := Bytes.flip_flip x
  simp only [Bytes.flip, List.map_append, List.length_map] at *
  rw [twice]

theorem Reading.flipped_run {α : Type} {r : Reading α} {x : Bytes} {a : α} (h : Takes r x a)
    {limit : Nat} (room : x.length ≤ limit) (rest : Bytes) :
    flipped limit r (Bytes.flip x ++ rest) = (.ok a, rest) := by
  simp only [flipped]
  rw [Bytes.flip_take_flip room, h]
  simp [Bytes.flip]

def FarEnd.kept : FarEnd → FarEnd
  | vertex id => vertex id
  | value v => value (v.kept .compact)

namespace Record

variable {types : Types} {t : RelationType} {r : Relation} {d : Direction} {far : FarEnd}

theorem takes_farEnd {tip : Bytes} (within : r.LeadsWithin t) (fitting : farEnd t r d = .ok far)
    (h : far.write t = .ok tip) :
    Takes (FarEnd.read t) tip far.kept := by
  obtain ⟨-, label, other, -, rfl⟩ | ⟨-, ⟨type, declared⟩, v, holds, rfl⟩ := farEnd_ok fitting
  · obtain rfl := Except.ok.inj h
    rw [FarEnd.read, label]
    exact (takes_escapedText other).map FarEnd.vertex
  · rw [FarEnd.write, declared] at h
    rw [FarEnd.read, declared]
    exact (Attribute.takes_write h (within.value v holds)).map FarEnd.value

theorem position_run (rec : Record) (read rest : Bytes) (h : rec.bytes = read ++ rest) :
    position rec.bytes.length rest = (.ok read.length, rest) := by
  have count : rec.bytes.length - rest.length = read.length := by
    rw [h, List.length_append]
    omega
  show (Except.ok (rec.bytes.length - rest.length), rest) = _
  rw [count]

theorem expectKeyEnd_run (rec : Record) (t : RelationType) :
    rec.expectKeyEnd t rec.content = (.ok (), rec.content) := by
  rw [expectKeyEnd, Attempt.bind_run_ok (position_run rec rec.key rec.content rfl), if_pos rfl]
  rfl

theorem expectContent_run (t : RelationType) {bytes : Bytes} (h : bytes ≠ []) :
    expectContent t bytes = (.ok (), bytes) := by
  cases bytes with
  | nil => contradiction
  | cons b rest => rfl

/-- The sort key is read where it stands, as long as the key does not break off in it. -/
theorem readSortKey_within {rec : Record} {header sort rest : Bytes}
    (within : ∀ key ∈ t.sortKey, ∀ v, (stored r).get? key = some v → v.isBeyond = false)
    (sorted : sortKey types t r = .ok sort) (whole : rec.bytes = header ++ (sort ++ rest))
    (room : t.sortOrder = .descending → sort.length ≤ rec.key.length - header.length) :
    readSortKey types t rec (sort ++ rest) = (.ok (Inline.present (stored r).get? t.sortKey), rest) := by
  obtain ⟨fields, written, rfl⟩ := sortKey_ok sorted
  have taken := Inline.takes_readAll within written
  rw [readSortKey]
  cases order : t.sortOrder with
  | ascending => exact taken _
  | descending =>
    simp only [order, SortOrder.turnBytes] at whole room
    have at_header := position_run rec header (Bytes.flip fields ++ rest) whole
    refine (Attempt.bind_run_ok at_header).trans (flipped_run taken ?_ _)
    simpa [Bytes.flip] using room

theorem readSortKey_run {rec : Record} {header sort rest : Bytes}
    (within : ∀ key ∈ t.sortKey, ∀ v, (stored r).get? key = some v → v.isBeyond = false)
    (sorted : sortKey types t r = .ok sort) (key : rec.key = header ++ (sort ++ rest)) :
    readSortKey types t rec (sort ++ (rest ++ rec.content)) =
      (.ok (Inline.present (stored r).get? t.sortKey), rest ++ rec.content) := by
  have whole : rec.bytes = header ++ (sort ++ (rest ++ rec.content)) := by
    rw [bytes, key]
    simp only [List.append_assoc]
  refine readSortKey_within within sorted whole fun _ => ?_
  rw [key]
  simp

section Layouts

variable {rec : Record} {header sort tip more : Bytes}

theorem readEnds_to_content (layout : Layout.of t d = .unique) (there : rec.content ≠ []) :
    readEnds types t d rec rec.content = (do
      let far ← FarEnd.read t
      let id ← Reading.escapedText
      return (far, id, []) : Reading _) rec.content := by
  rw [readEnds, layout]
  refine (Attempt.bind_run_ok (expectKeyEnd_run rec t)).trans ?_
  exact Attempt.bind_run_ok (expectContent_run t there)

theorem readEnds_unique (within : r.LeadsWithin t) (layout : Layout.of t d = .unique)
    (fitting : farEnd t r d = .ok far) (tip_eq : far.write t = .ok tip)
    (content : rec.content = tip ++ Bytes.escapedText r.id ++ more) :
    readEnds types t d rec rec.content = (.ok (far.kept, r.id, []), more) := by
  have there : rec.content ≠ [] := by
    rw [content, List.append_assoc]
    exact List.append_ne_nil_of_right_ne_nil _ (Bytes.escapedText_append_ne_nil r.id more)
  rw [readEnds_to_content layout there, content]
  refine (takes_farEnd within fitting tip_eq).bind ?_ more
  exact (takes_escapedText r.id).map fun id => (far.kept, id, [])

theorem readEnds_constrained (within : r.LeadsWithin t) (layout : Layout.of t d = .constrained)
    (fitting : farEnd t r d = .ok far) (tip_eq : far.write t = .ok tip)
    (content : rec.content = Bytes.escapedText r.id ++ more) :
    readEnds types t d rec (tip ++ rec.content) = (.ok (far.kept, r.id, []), more) := by
  have there : rec.content ≠ [] := content ▸ Bytes.escapedText_append_ne_nil r.id more
  rw [readEnds, layout]
  refine (Attempt.bind_run_ok (takes_farEnd within fitting tip_eq rec.content)).trans ?_
  refine (Attempt.bind_run_ok (expectKeyEnd_run rec t)).trans ?_
  refine (Attempt.bind_run_ok (expectContent_run t there)).trans ?_
  rw [content]
  exact (takes_escapedText r.id).map (fun id => (far.kept, id, [])) more

/-- The key of an edge holds both ends, so the content is left as it is. -/
theorem readEnds_label (within : r.LeadsWithin t) (layout : Layout.of t d = .unconstrained)
    (label : t.dataType? = none) (fitting : farEnd t r d = .ok far) (tip_eq : far.write t = .ok tip)
    (sorted : sortKey types t r = .ok sort)
    (key : rec.key = header ++ (sort ++ (tip ++ Bytes.escapedText r.id))) :
    readEnds types t d rec (sort ++ (tip ++ Bytes.escapedText r.id) ++ rec.content) =
      (.ok (far.kept, r.id, Inline.present (stored r).get? t.sortKey), rec.content) := by
  rw [readEnds, layout, List.append_assoc sort]
  refine (Attempt.bind_run_ok (readSortKey_run within.sortKey sorted key)).trans ?_
  rw [if_neg (by simp [RelationType.isPropertyKey, label]), List.append_assoc]
  refine (Attempt.bind_run_ok (takes_farEnd within fitting tip_eq _)).trans ?_
  refine (Attempt.bind_run_ok (takes_escapedText r.id _)).trans ?_
  exact Attempt.bind_run_ok (expectKeyEnd_run rec t)

theorem readEnds_to_value {type : DataType} (layout : Layout.of t d = .unconstrained)
    (declared : t.dataType? = some type) (there : rec.content ≠ [])
    (sortable : ∀ key ∈ t.sortKey, ∀ v, (stored r).get? key = some v → v.isBeyond = false)
    (sorted : sortKey types t r = .ok sort) (key : rec.key = header ++ (sort ++ Bytes.escapedText r.id)) :
    readEnds types t d rec (sort ++ Bytes.escapedText r.id ++ rec.content) =
      (FarEnd.read t >>= fun far => pure (far, r.id, Inline.present (stored r).get? t.sortKey)) rec.content := by
  rw [readEnds, layout, List.append_assoc sort]
  refine (Attempt.bind_run_ok (readSortKey_run sortable sorted key)).trans ?_
  rw [if_pos (by simp [RelationType.isPropertyKey, declared])]
  refine (Attempt.bind_run_ok (takes_escapedText r.id _)).trans ?_
  refine (Attempt.bind_run_ok (expectKeyEnd_run rec t)).trans ?_
  exact Attempt.bind_run_ok (expectContent_run t there)

theorem readEnds_propertyKey {type : DataType} (within : r.LeadsWithin t) (layout : Layout.of t d = .unconstrained)
    (declared : t.dataType? = some type) (fitting : farEnd t r d = .ok far)
    (tip_eq : far.write t = .ok tip) (there : tip ≠ []) (sorted : sortKey types t r = .ok sort)
    (key : rec.key = header ++ (sort ++ Bytes.escapedText r.id)) (content : rec.content = tip ++ more) :
    readEnds types t d rec (sort ++ Bytes.escapedText r.id ++ rec.content) =
      (.ok (far.kept, r.id, Inline.present (stored r).get? t.sortKey), more) := by
  have ahead : rec.content ≠ [] := content ▸ List.append_ne_nil_of_left_ne_nil there more
  rw [readEnds_to_value layout declared ahead within.sortKey sorted key, content]
  exact (takes_farEnd within fitting tip_eq).map
    (fun far => (far, r.id, Inline.present (stored r).get? t.sortKey)) more

/-- In each layout the ends are read back, and what is left is what comes after them. -/
theorem readEnds_run {ends : Bytes} (within : r.LeadsWithin t) (fitting : farEnd t r d = .ok far)
    (written : keyAndEnds types t r d far header = .ok (rec.key, ends))
    (content : rec.content = ends ++ more)
    (unsorted : t.multiplicity.isConstrained = true → t.sortKey = []) :
    ∃ tail, rec.key = header ++ tail ∧ readEnds types t d rec (tail ++ rec.content) =
      (.ok (far.kept, r.id, Inline.present (stored r).get? t.sortKey), more) := by
  obtain ⟨tip, tip_eq, parts⟩ := keyAndEnds_ok written
  cases layout : Layout.of t d with
  | unique =>
    rw [layout] at parts
    obtain ⟨key, rfl⟩ := parts
    rw [unsorted (Layout.isConstrained (by rw [layout]; decide))]
    exact ⟨[], by simp [key], readEnds_unique within layout fitting tip_eq content⟩
  | constrained =>
    rw [layout] at parts
    obtain ⟨key, rfl⟩ := parts
    rw [unsorted (Layout.isConstrained (by rw [layout]; decide))]
    exact ⟨tip, key, readEnds_constrained within layout fitting tip_eq content⟩
  | unconstrained =>
    rw [layout] at parts
    obtain ⟨sort, sorted, parts⟩ := parts
    obtain ⟨edge, label, -⟩ | ⟨edge, ⟨type, declared⟩, v, -, rfl⟩ := farEnd_ok fitting
    · rw [if_pos edge, List.append_assoc, List.append_assoc] at parts
      obtain ⟨key, rfl⟩ := parts
      refine ⟨_, key, ?_⟩
      rw [readEnds_label within layout label fitting tip_eq sorted key, content, List.nil_append]
    · rw [if_neg (by rw [edge]; decide), List.append_assoc] at parts
      obtain ⟨key, rfl⟩ := parts
      have there := Attribute.write_compact_ne_nil tip_eq
      exact ⟨_, key, readEnds_propertyKey within layout declared fitting tip_eq there sorted key content⟩

end Layouts

/-- The properties that stand at the end of the content, as they are read back. -/
def looseKept (t : RelationType) (entries : List (SchemaId × Value)) : List (SchemaId × Value) :=
  (entries.filter (·.1 ∉ t.inlinedKeys)).map fun e => (e.1, e.2.kept .compact)

/-- Under its key a loose value is read as the key declares it. -/
theorem readLoose_field {key : SchemaId} {declared : DataType} (typed : types.keyType key = .ok declared)
    (fuel : Nat) (bytes : Bytes) :
    readLoose types (fuel + 1) (Bytes.orderedVarint key.value ++ bytes) = (do
      let v ← Attribute.read declared .compact
      let rest ← readLoose types fuel
      return (key, v) :: rest : Reading _) bytes := by
  rw [readLoose]
  refine (Attempt.bind_run_ok (remaining_run _)).trans ?_
  rw [if_neg (by simp [Bytes.orderedVarint])]
  refine (Attempt.bind_run_ok (takes_orderedVarint key.value _)).trans ?_
  exact Attempt.bind_run_ok (Attempt.lift_run typed _)

theorem readLoose_run {entries : List (SchemaId × Value)} {bytes : Bytes}
    (within : ∀ e ∈ entries, e.2.isBeyond = false) (h : writeLoose types t entries = .ok bytes) {fuel : Nat}
    (enough : bytes.length < fuel) :
    readLoose types fuel bytes = (.ok (looseKept t entries), []) := by
  induction entries generalizing bytes fuel with
  | nil =>
    obtain rfl := Except.ok.inj h
    cases fuel <;> rfl
  | cons entry rest ih =>
    obtain ⟨key, v⟩ := entry
    obtain ⟨first, later⟩ := List.forall_mem_cons.1 within
    rw [writeLoose] at h
    split at h
    · next inlined =>
      rw [looseKept, List.filter_cons_of_neg (by simpa using inlined)]
      exact ih later h enough
    · next loose =>
      obtain ⟨declared, typed, h⟩ := bind_ok_iff.1 h
      obtain ⟨value, written, h⟩ := bind_ok_iff.1 h
      obtain ⟨others, rest_eq, h⟩ := bind_ok_iff.1 h
      obtain rfl := pure_ok_iff.1 h
      cases fuel with
      | zero => omega
      | succ fuel =>
        have more : others.length < fuel := by
          simp only [Bytes.orderedVarint, List.length_append, List.length_cons] at enough
          omega
        rw [looseKept, List.filter_cons_of_pos (by simpa using loose), List.map_cons]
        rw [List.append_assoc, readLoose_field typed]
        refine (Attempt.bind_run_ok (Attribute.takes_write written first _)).trans ?_
        refine (Attempt.bind_run_ok (ih later rest_eq more)).trans ?_
        rfl

theorem mem_looseKept {e : SchemaId × Value} :
    e ∈ looseKept t (stored r).entries ↔ e.1 ∉ t.inlinedKeys ∧
      ∃ v, (stored r).get? e.1 = some v ∧ e.2 = v.kept .compact := by
  simp only [looseKept, List.mem_map, List.mem_filter, decide_eq_true_eq]
  constructor
  · rintro ⟨⟨key, v⟩, ⟨member, loose⟩, rfl⟩
    exact ⟨loose, v, KeyMap.mem_entries.1 member, rfl⟩
  · rintro ⟨loose, v, there, same⟩
    exact ⟨(e.1, v), ⟨KeyMap.mem_entries.2 there, loose⟩, Prod.ext rfl same.symm⟩

theorem mem_metadata {e : SchemaId × Value} :
    e ∈ (r.properties.filter fun key _ => ImplicitKey.isReserved key).entries ↔
      r.properties.get? e.1 = some e.2 ∧ ImplicitKey.isReserved e.1 = true := by
  rw [← Prod.mk.eta (p := e), KeyMap.mem_entries, KeyMap.get?_filter, Option.filter_eq_some_iff]

/-- All properties that are read from the parts of a record. -/
def keptProperties (t : RelationType) (r : Relation) : List (SchemaId × Value) :=
  Inline.present (stored r).get? t.sortKey ++ Inline.present (stored r).get? t.signature ++
    looseKept t (stored r).entries ++
    (r.properties.filter fun key _ => ImplicitKey.isReserved key).entries

/-- A property is in the sort key, in the signature, among the loose ones or under an implicit key. -/
theorem mem_keptProperties {e : SchemaId × Value} :
    e ∈ keptProperties t r ↔ ∃ v, r.properties.get? e.1 = some v ∧ e.2 = v.keptUnder t e.1 := by
  simp only [keptProperties, List.mem_append, Inline.mem_present, mem_looseKept, mem_metadata,
    get?_stored, ← or_and_right]
  rw [← List.mem_append, ← RelationType.inlinedKeys]
  cases reserved : ImplicitKey.isReserved e.1
  · by_cases inlined : e.1 ∈ t.inlinedKeys <;> simp [Value.keptUnder, reserved, inlined]
  · simp [Value.keptUnder, reserved, eq_comm]

theorem ofList_keptProperties (t : RelationType) (r : Relation) :
    KeyMap.ofList (keptProperties t r) = r.properties.mapKeyed (Value.keptUnder t) := by
  apply KeyMap.ofList_eq
  · intro e member
    obtain ⟨v, there, same⟩ := mem_keptProperties.1 member
    rw [KeyMap.get?_mapKeyed, there, same, Option.map_some]
  · intro key value bound
    rw [KeyMap.get?_mapKeyed, Option.map_eq_some_iff] at bound
    obtain ⟨v, there, same⟩ := bound
    exact mem_keptProperties.2 ⟨v, there, same.symm⟩

/-- What a decoder finds in the record of a relation. -/
def expected (t : RelationType) (r : Relation) (position : Nat) (far : FarEnd) (headerOnly : Bool) :
    Decoded :=
  ⟨t.id, .ofPosition position, r.id, far.kept,
    if headerOnly then none else some (r.properties.mapKeyed (Value.keptUnder t))⟩

/-- What is read behind the ends. -/
def readProperties (types : Types) (t : RelationType) (d : Direction) (rec : Record) (headerOnly : Bool)
    (ends : FarEnd × RelationId × List (SchemaId × Value)) : Reading Decoded :=
  if headerOnly then return ⟨t.id, d, ends.2.1, ends.1, none⟩
  else do
    let signature ← Inline.readAll types t.signature
    let loose ← readLoose types (rec.bytes.length + 1)
    return ⟨t.id, d, ends.2.1, ends.1,
      some (.ofList (ends.2.2 ++ signature ++ loose ++ rec.metadata.entries))⟩

/-- Behind the header of a relation the decoder reads its ends, and then its properties. -/
theorem decode_run {s : Schema} {position : Nat} (p : Parts s.lookup r position) (named : p.type.id = r.type)
    {rec : Record} {after : Bytes} (whole : rec.bytes = p.header ++ after) (headerOnly : Bool) :
    rec.decode s.lookup headerOnly = (readEnds s.lookup p.type (.ofPosition position) rec >>=
      readProperties s.lookup p.type (.ofPosition position) rec headerOnly).result after := by
  obtain ⟨slot, slot_eq, header_eq⟩ := RelationType.header_ok p.header_eq
  obtain ⟨category, direction⟩ := slot_seen p slot_eq
  have known : s.lookup.existing p.type.id = .ok p.type := by
    rw [Types.existing, named, p.known]
  rw [decode, result, whole, read]
  rw [Attempt.bind_run_ok (Header.takes_read header_eq _)]
  rw [Attempt.bind_run_ok (Attempt.lift_run known _)]
  rw [if_neg (by simp [category])]
  simp only [direction]
  rfl

/-- A fault among the ends is what the decoder reports, whatever else it is asked for. -/
theorem decode_error {s : Schema} {position : Nat} (p : Parts s.lookup r position) (named : p.type.id = r.type)
    {rec : Record} {after left : Bytes} (whole : rec.bytes = p.header ++ after) {fault : Fault}
    (failed : readEnds s.lookup p.type (.ofPosition position) rec after = (.error fault, left))
    (headerOnly : Bool) : rec.decode s.lookup headerOnly = .error fault := by
  rw [decode_run p named whole, result, Attempt.bind_run_error failed]

theorem decode_record {s : Schema} {position : Nat} (p : Parts s.lookup r position) (named : p.type.id = r.type)
    (sound : s.Sound p.type) (headerOnly : Bool) (leads : r.LeadsWithin p.type)
    (within : headerOnly = false → r.IsWithin) :
    p.record.decode s.lookup headerOnly = .ok (expected p.type r position p.far headerOnly) := by
  have content : p.record.content = p.ends ++ (p.signature ++ p.loose) := List.append_assoc _ _ _
  obtain ⟨tail, key, ends⟩ := readEnds_run leads p.farEnd_eq p.keyAndEnds_eq content sound.unsorted
  have whole : p.record.bytes = p.header ++ (tail ++ p.record.content) := by
    rw [bytes, key, List.append_assoc]
  rw [decode_run p named whole, result, Attempt.bind_run_ok ends]
  cases headerOnly with
  | true => rfl
  | false =>
    have stored_within := (within rfl).properties
    have signature := Inline.takes_readAll (fun key _ => stored_within key) p.signature_eq p.loose
    have loose : ∀ e ∈ (stored r).entries, e.2.isBeyond = false := fun e there =>
      stored_within e.1 e.2 (KeyMap.mem_entries.1 there)
    have enough : p.loose.length < p.record.bytes.length + 1 := by
      simp only [bytes, Parts.record, List.length_append]
      omega
    simp only [readProperties, Bool.false_eq_true, if_false]
    rw [Attempt.bind_run_ok signature, Attempt.bind_run_ok (readLoose_run loose p.loose_eq enough)]
    exact congrArg Except.ok
      (congrArg (fun kept => Decoded.mk _ _ _ _ (some kept)) (ofList_keptProperties p.type r))

/-- The far end, seen from the owner of the record, leads back to the relation. -/
theorem toRelation_expected {position : Nat} (p : Parts types r position)
    (named : p.type.id = r.type) :
    (expected p.type r position p.far false).toRelation (r.vertex position) = r.kept p.type := by
  have touched := p.touched
  obtain ⟨edge, -, other, seen, far⟩ | ⟨property, -, v, holds, far⟩ := farEnd_ok p.farEnd_eq
  · cases kind : r.kind with
    | property => simp [Relation.isEdge, kind] at edge
    | edge outVertex inVertex =>
      by_cases first : position = 0
      · simp_all [Decoded.toRelation, expected, FarEnd.kept, Relation.kept, RelationKind.kept,
          Relation.vertex, Relation.otherVertex, Direction.ofPosition]
      · simp_all [Decoded.toRelation, expected, FarEnd.kept, Relation.kept, RelationKind.kept,
          Relation.vertex, Relation.otherVertex, Direction.ofPosition]
  · cases kind : r.kind with
    | edge => simp [Relation.isEdge, kind] at property
    | property vertex value =>
      simp_all [Decoded.toRelation, expected, FarEnd.kept, Relation.kept, RelationKind.kept,
        Relation.vertex, Relation.value]

theorem annKnows_isWithin (id : RelationId) (person : VertexId) (year : Int64) :
    (annKnows id person year).IsWithin where
  value v holds := by cases holds
  properties key v there := by
    obtain ⟨-, rfl⟩ := get?_annKnows (get?_stored.1 there).1
    rfl

end Record

end GraphStore
