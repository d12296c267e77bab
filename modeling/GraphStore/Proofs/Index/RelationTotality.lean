import GraphStore.Proofs.Index.Entry
import GraphStore.Proofs.Index.FieldAgreement
import GraphStore.Proofs.Index.RelationPlan
import GraphStore.Proofs.Record.Totality

/-!
Which relations can be planned. Values that a record takes are also taken by the keys of indexes, with two
exceptions. A record keeps the values of inlined keys in ordered form, which bounds no length, while index keys
have the compact form throughout; and an update asks the schema how long each of its keys lets it live, which the
schema knows of no implicit key. The plan sets out from other keys alone, so it comes to such a key only as one
among several fields of an index, and then it fails.
-/
namespace GraphStore

theorem Relation.category_identity (r : Relation) : (Element.relation r.identity).category = r.category := by
  cases kind : r.kind <;> simp [Element.category, identity, category, kind]

theorem CompositeIndex.element_of_appliesTo {i : CompositeIndex} {category : ElementCategory}
    {label : Option SchemaId} (applies : i.appliesTo category label = true) : i.element = category := by
  simp only [appliesTo, covers, Bool.and_eq_true, decide_eq_true_eq] at applies
  exact applies.1

/-- The match of a relation gives each field what the relation carries for it. -/
theorem Match.mem_zip_of_ofRelation? {r : Relation} {fields : List SchemaId} {m : Match}
    (matched : ofRelation? r fields = some m) {key : SchemaId} {v : Value} :
    (key, v) ∈ fields.zip (m.map (·.value)) ↔ key ∈ fields ∧ r.get? key = some v := by
  induction fields generalizing m with
  | nil => simp
  | cons field rest ih =>
    rw [ofRelation?] at matched
    split at matched
    · next w others carried later =>
      obtain rfl := Option.some.inj matched
      rw [List.map_cons, List.zip_cons_cons, List.mem_cons, List.mem_cons, ih later, Prod.mk.injEq]
      constructor
      · rintro (⟨rfl, rfl⟩ | ⟨inside, there⟩)
        · exact ⟨.inl rfl, carried⟩
        · exact ⟨.inr inside, there⟩
      · rintro ⟨rfl | inside, there⟩
        · exact .inl ⟨rfl, Option.some.inj (there.symm.trans carried)⟩
        · exact .inr ⟨inside, there⟩
    · cases matched

theorem Types.Takes.existing {types : Types} {key : SchemaId} {v : Value} (takes : types.Takes key v)
    (free : ImplicitKey.isReserved key = false) : ∃ t, types.existing key = .ok t := by
  obtain ⟨declared, known, -⟩ := takes
  have explicit : ImplicitKey.ofId? key = none := by simpa [ImplicitKey.isReserved] using free
  rw [keyType, explicit] at known
  cases found : types.existing key with
  | error fault => simp [found] at known
  | ok t => exact ⟨t, rfl⟩

namespace KeyCodec

variable {c : KeyCodec} {types : Types} {i : CompositeIndex} {values : List Value}

theorem writeValues_exists_iff {l : List (SchemaId × Value)} : (∃ bytes, writeValues types l = .ok bytes) ↔
    ∀ e ∈ l, types.Takes e.1 e.2 ∧ Compact.fits e.2 = true := by
  induction l with
  | nil => simp [writeValues]
  | cons e rest ih =>
    obtain ⟨key, v⟩ := e
    rw [List.forall_mem_cons, ← ih]
    constructor
    · rintro ⟨bytes, h⟩
      obtain ⟨declared, value, more, known, made, written, -⟩ := writeValues_cons_ok h
      obtain ⟨accepted, fits⟩ := Attribute.write_compact_exists_iff.1 ⟨value, made⟩
      exact ⟨⟨⟨declared, known, accepted⟩, fits⟩, more, written⟩
    · rintro ⟨⟨⟨declared, known, accepted⟩, fits⟩, more, written⟩
      obtain ⟨value, made⟩ := Attribute.write_compact_exists_iff.2 ⟨accepted, fits⟩
      exact ⟨_, bind_ok_iff.2 ⟨declared, known, bind_ok_iff.2 ⟨value, made,
        bind_ok_iff.2 ⟨more, written, rfl⟩⟩⟩⟩

/-- Values have a key if they are one for each field, and each is taken by its field and fits. -/
theorem build_exists_iff : (∃ key, c.build types i values = .ok key) ↔ values.length = i.fields.length ∧
    ∀ e ∈ i.fields.zip values, types.Takes e.1 e.2 ∧ Compact.fits e.2 = true := by
  rw [← writeValues_exists_iff]
  constructor
  · rintro ⟨key, h⟩
    obtain ⟨aligned, fields, written, -⟩ := build_ok h
    exact ⟨aligned, fields, written⟩
  · rintro ⟨aligned, fields, written⟩
    exact ⟨_, by rw [build, if_neg (not_not.2 aligned)]; exact bind_ok_iff.2 ⟨fields, written, rfl⟩⟩

end KeyCodec

/-- A field with a name of its own is found by it. -/
theorem FieldNames.exists_declared {types : Types} {i : MixedIndex} {f : MixedField} {name : String}
    (there : f ∈ i.fields) (named : declaredName types i.source f = .ok (some name)) :
    ∃ found, declared? types i f.key = some found := by
  refine Option.isSome_iff_exists.1 (List.findSome?_isSome_iff.2 ⟨f, List.mem_reverse.2 there, ?_⟩)
  rw [if_pos rfl, named]
  rfl

namespace Planner

variable {c : Planner} {space : FieldSpace} {r : Relation} {i : CompositeIndex} {m : Match} {kind : UpdateKind}
variable {type : RelationType} {defaults : DefaultFields}

/-- Mixed indexes are managed, and their fields are keys of the schema. -/
def Manages (c : Planner) : Prop :=
  ∀ i, c.catalog.IsMixed i → i.source = .managed ∧ ∀ f ∈ i.fields, ∃ t, c.types.type? f.key = some t

theorem Manages.resolve_exists (manages : c.Manages) (reached : c.catalog.Reachable) (keyed : defaults.Keyed)
    (before : FieldCalls c.catalog c.types (.new defaults) space) {j : MixedIndex} {f : MixedField}
    (known : c.catalog.IsMixed j) (there : f ∈ j.fields) :
    ∃ name, (FieldSpace.resolve c.types j f.key space).1 = .ok name := by
  obtain ⟨managed, keys⟩ := manages j known
  have start := before.leads reached keyed
  have settled := start.settled reached.apart (FieldTraffic.sound_new defaults)
  obtain ⟨names, made⟩ := FieldNames.exists_ofIndex (fun _ g member _ => keys g member) space.defaults
  have named : ∃ name, FieldNames.declaredName c.types j.source f = .ok (some name) := by
    obtain ⟨t, found⟩ := keys f there
    cases mapped : f.mappedName with
    | some name => exact ⟨name, by simp only [FieldNames.declaredName, mapped]⟩
    | none =>
      refine ⟨t.name, ?_⟩
      simp only [FieldNames.declaredName, mapped, managed, Types.existing, found, Except.map]
  obtain ⟨name, own⟩ := named
  obtain ⟨found, declared⟩ := FieldNames.exists_declared there own
  refine ⟨found, (settled.resolve_ok_iff reached.apart known).2 ⟨names, made, ?_⟩⟩
  rw [FieldNames.get?_ofIndex (start.extends.keyed keyed) made, declared, Option.some_or]

/-- A match of a relation has an update if each field is a key of the schema that takes what the relation
carries, and that fits. -/
theorem updateFor_composite_exists_iff (meets : c.Meets r i) (matched : Match.ofRelation? r i.fields = some m) :
    (∃ x, c.updateFor space (relationContext r kind type) r (.composite i m) = .ok x) ↔
      ∀ key ∈ i.fields, (∃ t, c.types.existing key = .ok t) ∧
        ∀ v, r.get? key = some v → c.types.Takes key v ∧ Compact.fits v = true := by
  have keys := Match.keys_of_ofRelation? matched
  have built : (∃ key, c.keys.ofMatch c.types i m = .ok key) ↔
      ∀ key ∈ i.fields, ∀ v, r.get? key = some v → c.types.Takes key v ∧ Compact.fits v = true := by
    have aligned : (m.map (·.value)).length = i.fields.length := by
      rw [← keys, List.length_map, List.length_map]
    rw [KeyCodec.ofMatch, KeyCodec.build_exists_iff, and_iff_right aligned]
    constructor
    · intro all key inside v carried
      exact all (key, v) ((Match.mem_zip_of_ofRelation? matched).2 ⟨inside, carried⟩)
    · intro all e there
      obtain ⟨inside, carried⟩ := (Match.mem_zip_of_ofRelation? matched).1 there
      exact all e.1 inside e.2 carried
  rw [forall₂_and, ← built, ← keyTtls_exists_iff]
  constructor
  · rintro ⟨x, made⟩
    obtain ⟨y, -, -, -, key, -, -, ttls, known, -⟩ := compositeUpdate_ok (liftFault_ok made)
    exact ⟨⟨ttls, keys ▸ known⟩, y.key, key⟩
  · rintro ⟨⟨ttls, known⟩, key, made⟩
    have fitting : (Element.relation r.identity).category = i.element :=
      r.category_identity.trans (CompositeIndex.element_of_appliesTo meets.applies).symm
    have update : ∃ x, c.compositeUpdate (relationContext r kind type) i m = .ok x :=
      ⟨_, bind_ok_iff.2 ⟨key, made, bind_ok_iff.2 ⟨_, IndexEntry.build_ok_iff.2 ⟨fitting, rfl⟩,
        bind_ok_iff.2 ⟨ttls, keys.symm ▸ known, rfl⟩⟩⟩⟩
    obtain ⟨x, update⟩ := update
    exact ⟨x, by rw [updateFor, update]; rfl⟩

/-- A value of a relation has an update if its field has a name and its key is a key of the schema. -/
theorem updateFor_mixed_exists_iff {j : MixedIndex} {key : SchemaId} {v : Value} :
    (∃ x, c.updateFor space (relationContext r kind type) r (.mixed j key v) = .ok x) ↔
      (∃ name, (FieldSpace.resolve c.types j key space).1 = .ok name) ∧ ∃ t, c.types.existing key = .ok t := by
  constructor
  · rintro ⟨x, made⟩
    obtain ⟨name, found, made⟩ := bind_ok_iff.1 made
    obtain ⟨t, known, -⟩ := bind_ok_iff.1 made
    exact ⟨⟨name, found⟩, t, liftFault_ok known⟩
  · rintro ⟨⟨name, found⟩, t, known⟩
    exact ⟨_, bind_ok_iff.2 ⟨name, found, bind_ok_iff.2 ⟨t, by rw [known]; rfl, rfl⟩⟩⟩

/-- What a relation carries has a place in the index: no field is an implicit key, and the values fit. -/
def Admits (r : Relation) (i : CompositeIndex) : Prop :=
  ∀ key ∈ i.fields, ImplicitKey.isReserved key = false ∧ ∀ v, r.get? key = some v → Compact.fits v = true

section Totality

variable {s : Schema} {position : Nat} {rec : Record} (grown : s.Reachable) (types : c.types = s.lookup)
  (reached : c.catalog.Reachable) (manages : c.Manages) (keyed : defaults.Keyed)
  (before : FieldCalls c.catalog c.types (.new defaults) space)
  (encoded : Record.encode s.lookup r position = .ok rec)

include grown types reached manages keyed before encoded

/-- A relation that has a record can be planned just if each composite index that the plan comes to has a place
for it. -/
theorem exists_plan_iff_admits (kind : UpdateKind) :
    (∃ set space', c.plan (.relation r kind) space = (.ok set, space')) ↔ ∀ i, c.Meets r i → Admits r i := by
  obtain ⟨t, storable, -⟩ := Record.storable_of_encode encoded
  have existing {id : SchemaId} {t : RelationType} (found : c.types.type? id = some t) :
      c.types.existing id = .ok t := by simp only [Types.existing, found]
  rw [exists_plan_relation_iff reached]
  constructor
  · rintro ⟨type, -, each⟩ i meets key inside
    obtain ⟨m, matched⟩ := Match.exists_ofRelation?_iff.2 meets.carried
    have update := each _ ((composite_mem_contributions reached).2 ⟨meets, matched⟩)
    obtain ⟨⟨t, found⟩, takes⟩ := (updateFor_composite_exists_iff meets matched).1 update key inside
    exact ⟨grown.unreserved (types ▸ found), fun v carried => (takes v carried).2⟩
  · refine fun admits => ⟨t, existing (types ▸ storable.known), fun w contributed => ?_⟩
    cases w with
    | mixed j key v =>
      obtain ⟨f, rfl, fills⟩ := (mixed_mem_contributions reached).1 contributed
      obtain ⟨t, found⟩ := (manages j fills.known).2 f fills.declared
      exact updateFor_mixed_exists_iff.2
        ⟨manages.resolve_exists reached keyed before fills.known fills.declared, t, existing found⟩
    | composite i m =>
      obtain ⟨meets, matched⟩ := (composite_mem_contributions reached).1 contributed
      refine (updateFor_composite_exists_iff meets matched).2 fun key inside => ?_
      obtain ⟨free, fits⟩ := admits i meets key inside
      have takes {v : Value} (carried : r.get? key = some v) : c.types.Takes key v :=
        types ▸ storable.properties key v carried
      obtain ⟨v, carried⟩ := Option.isSome_iff_exists.1 (meets.carried key inside)
      exact ⟨(takes carried).existing free, fun v carried => ⟨takes carried, fits v carried⟩⟩

/-- A relation that has a record can be planned, and just the composite indexes that the plan comes to get an
update, if none of them takes an implicit key among others, and none a value of an inlined key that is too long
for the compact form. -/
theorem plan_of_encode
    (unmixed : ∀ i, c.Meets r i → ∀ key ∈ i.fields, ImplicitKey.isReserved key = false)
    (short : ∀ i, c.Meets r i → ∀ key ∈ i.fields, ∀ t, s.lookup.type? r.type = some t → key ∈ t.inlinedKeys →
      ∀ v, r.get? key = some v → Compact.fits v = true) (kind : UpdateKind) :
    ∃ set space', c.plan (.relation r kind) space = (.ok set, space') ∧
      (∀ i, c.Meets r i → ∃ x ∈ set.composites, c.EntersAs r kind i x) ∧
      ∀ x ∈ set.composites, ∃ i, c.Meets r i ∧ c.EntersAs r kind i x := by
  obtain ⟨t, storable, under⟩ := Record.storable_of_encode encoded
  have admits : ∀ i, c.Meets r i → Admits r i := fun i meets key inside => by
    have free := unmixed i meets key inside
    refine ⟨free, fun v carried => ?_⟩
    by_cases inlined : key ∈ t.inlinedKeys
    · exact short i meets key inside t storable.known inlined v carried
    · exact under.loose key v carried free inlined
  obtain ⟨set, space', planned⟩ :=
    (exists_plan_iff_admits grown types reached manages keyed before encoded kind).2 admits
  obtain ⟨type, us, typed, rfl, made⟩ := planRelation_ok reached planned
  have just := entersJust reached typed made grown types
  refine ⟨_, space', planned, fun i meets => ?_, fun x there => ?_⟩
  · exact just.complete i (meets.enters (unmixed i meets))
  · obtain ⟨i, enters, as⟩ := just.sound x there
    exact ⟨i, enters.meets reached, as⟩

end Totality

theorem meetingsPlanner_manages : meetingsPlanner.Manages := by
  intro i known
  obtain rfl := eq_searchedMeetings known
  refine ⟨rfl, fun f there => ?_⟩
  simp only [searchedMeetings, List.mem_cons, List.not_mem_nil, or_false] at there
  obtain rfl | rfl := there
  · exact ⟨Schema.since, rfl⟩
  · exact ⟨venue, rfl⟩

theorem get?_annMet {key : SchemaId} {v : Value} (there : annMet.get? key = some v) :
    key = Schema.since.id ∧ v = .int 2001 ∨ key = venue.id ∧ v = .string "rome" := by
  have entry := KeyMap.mem_entries.2 there
  have all : annMet.properties.entries = [(Schema.since.id, .int 2001), (venue.id, .string "rome")] := rfl
  simpa [all] using entry

/-- The index over the years and places gets its update. -/
theorem plan_of_encode_annMet :
    (∃ rec, Record.encode meetings.lookup annMet 0 = .ok rec) ∧ meetingsPlanner.Meets annMet byMeeting ∧
    ∃ set space', meetingsPlanner.plan (.relation annMet .add) (.new .empty) = (.ok set, space') ∧
      (∀ i, meetingsPlanner.Meets annMet i →
        ∃ x ∈ set.composites, meetingsPlanner.EntersAs annMet .add i x) ∧
      ∀ x ∈ set.composites, ∃ i, meetingsPlanner.Meets annMet i ∧
        meetingsPlanner.EntersAs annMet .add i x := by
  have meets : meetingsPlanner.Meets annMet byMeeting :=
    ⟨rfl, rfl, rfl, by decide, Schema.since.id, by decide, by decide⟩
  obtain ⟨rec, encoded⟩ : ∃ rec, Record.encode meetings.lookup annMet 0 = .ok rec := ⟨_, rfl⟩
  refine ⟨⟨rec, encoded⟩, meets, ?_⟩
  refine plan_of_encode meetings_reachable rfl meetingsCatalog_reachable meetingsPlanner_manages
    DefaultFields.keyed_empty .refl encoded ?_ ?_ .add
  · intro i meets key inside
    obtain ⟨v, carried⟩ := Option.isSome_iff_exists.1 (meets.carried key inside)
    obtain ⟨rfl, -⟩ | ⟨rfl, -⟩ := get?_annMet carried <;> decide
  · intro i meets key inside t known inlined v carried
    obtain ⟨-, rfl⟩ | ⟨-, rfl⟩ := get?_annMet carried <;> decide

end Planner

namespace Schema

/-- Bytes that come with a letter. -/
def token : RelationType := .propertyKey (.ofNat 12) "token" .bytes

/-- Letters, sorted by their tokens. -/
def sends : RelationType := { RelationType.edgeLabel (.ofNat 13) "sends" with sortKey := [token.id] }

def post : Schema := ⟨.ofList [(token.id, token), (sends.id, sends)], .empty⟩

theorem post_reachable : post.Reachable := by
  have first : Schema.empty.addType token = .ok ⟨.ofList [(token.id, token)], .empty⟩ := rfl
  have second : Schema.addType ⟨.ofList [(token.id, token)], .empty⟩ sends = .ok post := rfl
  exact (Reachable.empty.addType first).addType second

end Schema

namespace Planner

open Schema (token sends post)

def letter (properties : List (SchemaId × Value)) : Relation :=
  ⟨"l", sends.id, .edge "ann" "bob", .ofList properties⟩

/-- Letters with a token, with a time to live, and with both. -/
def tokenLetter (bytes : Bytes) : Relation := letter [(token.id, .bytes bytes)]

def briefLetter : Relation := letter [(ImplicitKey.ttl.id, .int 60)]

def briefTokenLetter : Relation := letter [(token.id, .bytes [7]), (ImplicitKey.ttl.id, .int 60)]

def byTokenAndTtl : CompositeIndex :=
  ⟨.ofNat 21, "by token and time to live", .edge, [token.id, ImplicitKey.ttl.id], .list, .enabled, none⟩

def byTtl : CompositeIndex := ⟨.ofNat 22, "by time to live", .edge, [ImplicitKey.ttl.id], .list, .enabled, none⟩

def byToken : CompositeIndex := ⟨.ofNat 23, "by token", .edge, [token.id], .list, .enabled, none⟩

def letterCatalog : Catalog where
  byId := .ofList [(byTokenAndTtl.id, .composite byTokenAndTtl), (byTtl.id, .composite byTtl),
    (byToken.id, .composite byToken)]
  byName := [(byToken.name, byToken.id), (byTtl.name, byTtl.id), (byTokenAndTtl.name, byTokenAndTtl.id)]
  byKey := .ofList [(token.id, [byTokenAndTtl.id, byToken.id]),
    (ImplicitKey.ttl.id, [byTokenAndTtl.id, byTtl.id])]

def letterPlanner : Planner := ⟨letterCatalog, post.lookup, .sha256 none, .none, none⟩

theorem letterCatalog_reachable : letterCatalog.Reachable := by
  have first := Catalog.Reachable.empty.create (d := .composite byTokenAndTtl) rfl
  exact (first.create (d := .composite byTtl) rfl).create (d := .composite byToken) rfl

theorem letterPlanner_manages : letterPlanner.Manages := by
  intro i known
  have listed : IndexDefinition.mixed i ∈ letterCatalog.byId.entries.map (·.2) :=
    List.mem_map_of_mem (KeyMap.mem_entries.2 known)
  have all : letterCatalog.byId.entries.map (·.2) =
      [.composite byTokenAndTtl, .composite byTtl, .composite byToken] := rfl
  simp [all] at listed

variable {bytes : Bytes}

/-- In a sort key, a record has room for any number of bytes. -/
theorem exists_encode_tokenLetter (bytes : Bytes) :
    ∃ rec, Record.encode post.lookup (tokenLetter bytes) 0 = .ok rec := by
  have only {key : SchemaId} {v : Value} (there : (tokenLetter bytes).get? key = some v) :
      key = token.id ∧ v = .bytes bytes := by
    have entry := KeyMap.mem_entries.2 there
    simpa [tokenLetter, letter, KeyMap.ofList, KeyMap.insert, KeyMap.empty, KeyMap.insertEntry] using entry
  have bare (v : Value) : (tokenLetter bytes).value ≠ some v := by
    simp [tokenLetter, letter, Relation.value]
  have known : post.types.get? sends.id = some sends := rfl
  refine Record.encode_exists (Schema.post_reachable.sound known).2
    ⟨rfl, Nat.zero_lt_two, rfl, fun v _ holds => absurd holds (bare v), fun key v there => ?_⟩
    ⟨fun v holds => absurd holds (bare v), fun key v there _ apart => ?_⟩
  · obtain ⟨rfl, rfl⟩ := only there
    exact ⟨.bytes, rfl, rfl⟩
  · obtain ⟨rfl, -⟩ := only there
    exact absurd List.mem_cons_self apart

/-- The index has room for fewer. -/
theorem no_plan_tokenLetter (long : Compact.fits (.bytes bytes) = false) (kind : UpdateKind) :
    ¬∃ set space', letterPlanner.plan (.relation (tokenLetter bytes) kind) (.new .empty) =
      (.ok set, space') := by
  obtain ⟨rec, encoded⟩ := exists_encode_tokenLetter bytes
  rw [exists_plan_iff_admits Schema.post_reachable rfl letterCatalog_reachable letterPlanner_manages
    DefaultFields.keyed_empty .refl encoded]
  intro admits
  have meets : letterPlanner.Meets (tokenLetter bytes) byToken := by
    refine ⟨rfl, rfl, rfl, fun key inside => ?_, token.id, List.mem_cons_self, rfl⟩
    obtain rfl := List.mem_singleton.1 inside
    rfl
  have fits := (admits byToken meets token.id List.mem_cons_self).2 (.bytes bytes) rfl
  rw [long] at fits
  cases fits

/-- Three letters that have records, in a catalog over keys of known types. The first carries an implicit key
among the fields of an index, and has no plan. The second carries only the implicit key that is the one field of
another index, and has a plan without an update. The third has more bytes in its sort key than an index takes. -/
theorem encoded_letters_unplanned :
    (post.Reachable ∧ letterPlanner.catalog.Reachable ∧ letterPlanner.Manages ∧
      ∀ key ∈ [token.id, ImplicitKey.ttl.id], ∃ type, post.lookup.keyType key = .ok type) ∧
    ((∃ rec, Record.encode post.lookup briefTokenLetter 0 = .ok rec) ∧
      ∀ kind, (letterPlanner.plan (.relation briefTokenLetter kind) (.new .empty)).1 =
        .error (.core (.unknownType ImplicitKey.ttl.id))) ∧
    ((∃ rec, Record.encode post.lookup briefLetter 0 = .ok rec) ∧
      (letterPlanner.catalog.get? byTtl.id = some (.composite byTtl) ∧ byTtl.status.isMaintained = true ∧
        byTtl.appliesTo briefLetter.category (some briefLetter.type) = true ∧
        ∀ key ∈ byTtl.fields, (briefLetter.get? key).isSome = true) ∧
      ∀ kind, (letterPlanner.plan (.relation briefLetter kind) (.new .empty)).1 = .ok .empty) ∧
    (∃ rec, Record.encode post.lookup (tokenLetter (List.replicate 0x100000000 0)) 0 = .ok rec) ∧
      ∀ kind, ¬∃ set space', letterPlanner.plan (.relation (tokenLetter (List.replicate 0x100000000 0)) kind)
        (.new .empty) = (.ok set, space') := by
  refine ⟨⟨Schema.post_reachable, letterCatalog_reachable, letterPlanner_manages, fun key there => ?_⟩,
    ⟨⟨_, rfl⟩, ?_⟩, ⟨⟨_, rfl⟩, ⟨rfl, rfl, rfl, by decide⟩, ?_⟩, exists_encode_tokenLetter _, no_plan_tokenLetter ?_⟩
  · obtain rfl | there := List.mem_cons.1 there
    · exact ⟨.bytes, rfl⟩
    · obtain rfl := List.mem_singleton.1 there
      exact ⟨.int, rfl⟩
  · rintro (_ | _) <;> rfl
  · rintro (_ | _) <;> rfl
  · rw [Compact.fits, Compact.payload, List.length_replicate]
    exact decide_eq_false (Nat.lt_irrefl _)

end Planner

end GraphStore
