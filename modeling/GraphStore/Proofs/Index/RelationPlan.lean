import GraphStore.Proofs.Index.Contributions
import GraphStore.Proofs.Index.Reindexing
import GraphStore.Proofs.Record.Parts

/-!
What a plan holds for a relation. The match of a composite index comes up once for each of its fields, and the
set takes its update once; values go to fields that are told apart by their names. So each index that the
relation belongs to is served once, and no other.
-/
namespace GraphStore

namespace Planner

open Planning

variable {c : Planner} {space : FieldSpace} {r : Relation} {w : Contribution} {i : CompositeIndex}

/-- The relation stands in a composite index: the index is kept up and covers it, and the relation carries all
fields, none of which is an implicit key. -/
structure Enters (c : Planner) (r : Relation) (i : CompositeIndex) : Prop where
  known : c.catalog.get? i.id = some (.composite i)
  maintained : i.status.isMaintained = true
  applies : i.appliesTo r.category (some r.type) = true
  carried : ∀ key ∈ i.fields, ImplicitKey.isReserved key = false ∧ (r.get? key).isSome = true

theorem Enters.meets (reached : c.catalog.Reachable) (enters : c.Enters r i) : c.Meets r i := by
  obtain ⟨filled, -⟩ := reached.sound.distinct i.id i enters.known
  obtain ⟨key, inside⟩ := List.exists_mem_of_ne_nil _ filled
  exact ⟨enters.known, enters.maintained, enters.applies, fun k member => (enters.carried k member).2,
    key, inside, (enters.carried key inside).1⟩

theorem Meets.enters (meets : c.Meets r i) (free : ∀ key ∈ i.fields, ImplicitKey.isReserved key = false) :
    c.Enters r i :=
  ⟨meets.known, meets.maintained, meets.applies, fun key inside => ⟨free key inside, meets.carried key inside⟩⟩

/-- How long the type of a relation and some keys let an update live: the times above zero. -/
def lifetime (c : Planner) (r : Relation) (keys : List SchemaId) : Set Nat :=
  {t | 0 < t ∧ ∃ id ∈ r.type :: keys, ∃ type, c.types.existing id = .ok type ∧ type.ttl = some t}

/-- What comes expires at the earliest of some times, and what goes never does. -/
def Expires (kind : UpdateKind) (times : Set Nat) (ttl : Option Nat) : Prop :=
  match kind with
  | .add => Earliest times ttl
  | .delete => ttl = none

theorem expires_ttlFor {type : RelationType} {keys : List SchemaId} {ttls : List (Option Nat)}
    (typed : c.types.existing r.type = .ok type) (known : keyTtls c.types keys = .ok ttls) (kind : UpdateKind) :
    Expires kind (c.lifetime r keys) (ttlFor kind (type.ttl :: ttls)) := by
  cases kind with
  | delete => rfl
  | add =>
    have all : keyTtls c.types (r.type :: keys) = .ok (type.ttl :: ttls) :=
      bind_ok_iff.2 ⟨type, typed, bind_ok_iff.2 ⟨ttls, known, rfl⟩⟩
    have least := earliest_minTtl (type.ttl :: ttls)
    simp only [mem_keyTtls all] at least
    exact least

/-- The update of a composite index for the match of a relation. -/
structure EntersAs (c : Planner) (r : Relation) (kind : UpdateKind) (i : CompositeIndex) (x : CompositeUpdate) :
    Prop where
  index : x.index = i.id
  element : x.element = .relation r.identity
  matched : ∃ m, Match.ofRelation? r i.fields = some m ∧ c.keys.ofMatch c.types i m = .ok x.key ∧
    IndexEntry.build i m (.relation r.identity) = .ok x.entry
  ttl : Expires kind (c.lifetime r i.fields) x.ttl
  kind : x.kind = kind

/-- The update of a field for a value of a relation. The field is the one that a lookup finds. -/
structure FillsAs (c : Planner) (space : FieldSpace) (r : Relation) (kind : UpdateKind) (i : MixedIndex)
    (key : SchemaId) (v : Value) (x : MixedUpdate) : Prop where
  index : x.index = i.id
  store : x.store = i.store
  element : x.element = .relation r.identity
  field : (FieldSpace.resolve c.types i key space).1 = .ok x.field
  cardinality : ∃ type, c.types.existing key = .ok type ∧ x.cardinality = type.cardinality
  value : x.value = c.auxiliary.fieldValue v r.properties
  ttl : Expires kind (c.lifetime r [key]) x.ttl
  kind : x.kind = kind

theorem liftFault_ok {β : Type} {e : Except Fault β} {a : β} (h : liftFault e = .ok a) : e = .ok a := by
  cases e with
  | error fault => cases h
  | ok b => exact congrArg _ (Except.ok.inj h)

section Updates

variable {type : RelationType} (typed : c.types.existing r.type = .ok type) {kind : UpdateKind}
  {x : IndexUpdate}

include typed

/-- What a match comes to; all its fields are keys of the schema. -/
theorem entersAs_of_update {i : CompositeIndex} {m : Match} (matched : Match.ofRelation? r i.fields = some m)
    (made : c.updateFor space (relationContext r kind type) r (.composite i m) = .ok x) :
    (∀ key ∈ i.fields, ∃ t, c.types.existing key = .ok t) ∧ ∃ y, x = .composite y ∧ c.EntersAs r kind i y := by
  obtain ⟨y, rfl, index, kind_eq, key, entry, element, ttls, known, ttl⟩ :=
    compositeUpdate_ok (liftFault_ok made)
  rw [Match.keys_of_ofRelation? matched] at known
  have expires := expires_ttlFor typed known kind
  refine ⟨keyTtls_exists_iff.1 ⟨ttls, known⟩, y, rfl, index, element, ⟨m, matched, key, entry⟩, ?_, kind_eq⟩
  rw [ttl]
  exact expires

/-- What a value comes to. -/
theorem fillsAs_of_update {i : MixedIndex} {key : SchemaId} {v : Value}
    (made : c.updateFor space (relationContext r kind type) r (.mixed i key v) = .ok x) :
    ∃ y, x = .mixed y ∧ c.FillsAs space r kind i key v y := by
  obtain ⟨name, found, made⟩ := bind_ok_iff.1 made
  obtain ⟨t, known, made⟩ := bind_ok_iff.1 made
  have known := liftFault_ok known
  obtain rfl := pure_ok_iff.1 made
  have ttls : keyTtls c.types [key] = .ok [t.ttl] := bind_ok_iff.2 ⟨t, known, rfl⟩
  exact ⟨_, rfl, rfl, rfl, rfl, found, ⟨t, known, rfl⟩, rfl, expires_ttlFor typed ttls kind, rfl⟩

variable (reached : c.catalog.Reachable) (contributed : w ∈ c.contributions r)

include reached contributed

/-- A composite update is that of an index in which the relation stands. -/
theorem composite_source {s : Schema} (grown : s.Reachable) (types : c.types = s.lookup) {y : CompositeUpdate}
    (made : c.updateFor space (relationContext r kind type) r w = .ok (.composite y)) :
    ∃ i m, w = .composite i m ∧ c.Enters r i ∧ c.EntersAs r kind i y := by
  cases w with
  | composite i m =>
    obtain ⟨meets, matched⟩ := (composite_mem_contributions reached).1 contributed
    obtain ⟨keys, z, same, as⟩ := entersAs_of_update typed matched made
    obtain rfl := IndexUpdate.composite.inj same
    have free : ∀ key ∈ i.fields, ImplicitKey.isReserved key = false := fun key inside =>
      let ⟨_, found⟩ := keys key inside
      grown.unreserved (types ▸ found)
    exact ⟨i, m, rfl, meets.enters free, as⟩
  | mixed i key v =>
    obtain ⟨z, same, -⟩ := fillsAs_of_update typed made
    cases same

/-- An update of a field is that of a value. -/
theorem mixed_source {y : MixedUpdate}
    (made : c.updateFor space (relationContext r kind type) r w = .ok (.mixed y)) :
    ∃ i f v, w = .mixed i f.key v ∧ c.Fills r i f v ∧ c.FillsAs space r kind i f.key v y := by
  cases w with
  | composite i m =>
    obtain ⟨-, matched⟩ := (composite_mem_contributions reached).1 contributed
    obtain ⟨-, z, same, -⟩ := entersAs_of_update typed matched made
    cases same
  | mixed i key v =>
    obtain ⟨f, rfl, fills⟩ := (mixed_mem_contributions reached).1 contributed
    obtain ⟨z, same, as⟩ := fillsAs_of_update typed made
    obtain rfl := IndexUpdate.mixed.inj same
    exact ⟨i, f, v, rfl, fills, as⟩

end Updates

/-- The updates are one for each composite index in which the relation stands. -/
structure EntersJust (c : Planner) (r : Relation) (kind : UpdateKind) (xs : List CompositeUpdate) : Prop where
  once : (xs.map (·.index)).Nodup
  complete : ∀ i, c.Enters r i → ∃ x ∈ xs, c.EntersAs r kind i x
  sound : ∀ x ∈ xs, ∃ i, c.Enters r i ∧ c.EntersAs r kind i x

/-- The updates are one for each field that the relation has a value for. -/
structure FillsJust (c : Planner) (space : FieldSpace) (r : Relation) (kind : UpdateKind)
    (xs : List MixedUpdate) : Prop where
  once : (xs.map fun x => (x.index, x.field)).Nodup
  complete : ∀ i f v, c.Fills r i f v → ∃ x ∈ xs, c.FillsAs space r kind i f.key v x
  sound : ∀ x ∈ xs, ∃ i f v, c.Fills r i f v ∧ c.FillsAs space r kind i f.key v x

/-- Lookups find different names for the fields of an index. -/
def NamesApart (c : Planner) (space : FieldSpace) : Prop :=
  ∀ i, c.catalog.IsMixed i → ∀ f ∈ i.fields, ∀ g ∈ i.fields, ∀ name,
    (FieldSpace.resolve c.types i f.key space).1 = .ok name →
    (FieldSpace.resolve c.types i g.key space).1 = .ok name → f.key = g.key

variable {kind : UpdateKind} {space' : FieldSpace} {set : UpdateSet}

section Sets

variable {type : RelationType} {us : List IndexUpdate} (reached : c.catalog.Reachable)
  (typed : c.types.existing r.type = .ok type)
  (made : (c.contributions r).map (c.updateFor space (relationContext r kind type) r) = us.map .ok)

include made reached typed

/-- The match of an index comes up once for each field, with one update that the set takes once. -/
theorem entersJust {s : Schema} (grown : s.Reachable) (types : c.types = s.lookup) :
    c.EntersJust r kind (UpdateSet.empty.insertAll us).composites := by
  have held (x : CompositeUpdate) : x ∈ (UpdateSet.empty.insertAll us).composites ↔ .composite x ∈ us := by
    rw [UpdateSet.mem_composites, UpdateSet.mem_insertAll]
    simp [UpdateSet.empty]
  have sound : ∀ x ∈ (UpdateSet.empty.insertAll us).composites, ∃ i m, .composite i m ∈ c.contributions r ∧
      c.updateFor space (relationContext r kind type) r (.composite i m) = .ok (.composite x) ∧
      c.Enters r i ∧ c.EntersAs r kind i x := by
    intro x there
    obtain ⟨w, contributed, update⟩ := (mem_updates_iff made).1 ((held x).1 there)
    obtain ⟨i, m, rfl, enters, as⟩ := composite_source typed reached contributed grown types update
    exact ⟨i, m, contributed, update, enters, as⟩
  refine ⟨?_, fun i enters => ?_, fun x there => ?_⟩
  · have start : UpdateSet.empty.composites.Nodup := List.nodup_nil
    refine List.Nodup.map_on (fun x there y there' same => ?_) (UpdateSet.nodup_insertAll start us)
    obtain ⟨i, m, contributed, update, -, as⟩ := sound x there
    obtain ⟨j, n, contributed', update', -, as'⟩ := sound y there'
    have ids : i.id = j.id := as.index.symm.trans (same.trans as'.index)
    obtain ⟨rfl, rfl⟩ := composite_unique reached contributed contributed' ids
    exact IndexUpdate.composite.inj (Except.ok.inj (update.symm.trans update'))
  · have meets := enters.meets reached
    obtain ⟨m, matched⟩ := Match.exists_ofRelation?_iff.2 meets.carried
    have contributed := (composite_mem_contributions reached).2 ⟨meets, matched⟩
    obtain ⟨x, there, update⟩ := exists_update made contributed
    obtain ⟨-, y, rfl, as⟩ := entersAs_of_update typed matched update
    exact ⟨y, (held y).2 there, as⟩
  · obtain ⟨i, m, -, -, enters, as⟩ := sound x there
    exact ⟨i, enters, as⟩

variable (apart : c.NamesApart space)

include apart

/-- Values for fields of their own go to names of their own. -/
theorem pairwise_fields : (mixedsOf us).Pairwise fun x y => (x.index, x.field) ≠ (y.index, y.field) := by
  have each : (us.map (Except.ok : IndexUpdate → Except IndexFault IndexUpdate)).Pairwise fun a b =>
      ∀ x y, a = .ok (.mixed x) → b = .ok (.mixed y) → (x.index, x.field) ≠ (y.index, y.field) := by
    rw [← made, List.pairwise_map]
    refine (apart_contributions reached.sound).imp_of_mem fun {w w'} there there' differ x y left right => ?_
    obtain ⟨i, f, v, rfl, fills, as⟩ := mixed_source typed reached there left
    obtain ⟨j, g, v', rfl, fills', as'⟩ := mixed_source typed reached there' right
    intro both
    obtain ⟨index, field⟩ := Prod.mk.inj both
    have ids : i.id = j.id := as.index.symm.trans (index.trans as'.index)
    obtain rfl := reached.apart i j fills.known fills'.known (.inl ids)
    exact differ rfl (apart i fills.known f fills.declared g fills'.declared _ as.field (field ▸ as'.field))
  rw [mixedsOf, List.pairwise_filterMap]
  refine (List.pairwise_map.1 each).imp fun {a b} differ x left y right => ?_
  cases a with
  | composite a => cases left
  | mixed a =>
    cases b with
    | composite b => cases right
    | mixed b =>
      obtain rfl := Option.some.inj left
      obtain rfl := Option.some.inj right
      exact differ _ _ rfl rfl

theorem fillsJust : c.FillsJust space r kind (UpdateSet.empty.insertAll us).mixeds := by
  have fields := pairwise_fields reached typed made apart
  have all : (UpdateSet.empty.insertAll us).mixeds = mixedsOf us := by
    refine UpdateSet.mixeds_insertAll (s := .empty) (fields.imp fun {x y} differ => ?_)
    rw [Bool.eq_false_iff]
    intro same
    obtain ⟨-, -, index, -, -, field, -⟩ := MixedUpdate.sameTarget_iff.1 same
    exact differ (Prod.ext index field)
  rw [all]
  refine ⟨List.pairwise_map.2 fields, fun i f v fills => ?_, fun x there => ?_⟩
  · have contributed := (mixed_mem_contributions reached).2 ⟨f, rfl, fills⟩
    obtain ⟨x, there, update⟩ := exists_update made contributed
    obtain ⟨y, rfl, as⟩ := fillsAs_of_update typed update
    exact ⟨y, mem_mixedsOf.2 there, as⟩
  · obtain ⟨w, contributed, update⟩ := (mem_updates_iff made).1 (mem_mixedsOf.1 there)
    obtain ⟨i, f, v, -, fills, as⟩ := mixed_source typed reached contributed update
    exact ⟨i, f, v, fills, as⟩

end Sets

/-- A plan for a relation that succeeds holds one update for each composite index in which the relation stands,
one for each field of a mixed index that it has a value for, and nothing else, provided that a lookup finds
fields of different names for different keys of an index. -/
theorem plan_affects {s : Schema} (grown : s.Reachable) (types : c.types = s.lookup)
    (reached : c.catalog.Reachable)
    (apart : c.NamesApart space)
    (planned : c.plan (.relation r kind) space = (.ok set, space')) :
    c.EntersJust r kind set.composites ∧ c.FillsJust space r kind set.mixeds := by
  obtain ⟨type, us, typed, rfl, made⟩ := planRelation_ok reached planned
  exact ⟨entersJust reached typed made grown types, fillsJust reached typed made apart⟩

/-- Where people met; for a minute. -/
def venue : RelationType := { RelationType.propertyKey (.ofNat 13) "venue" .string with ttl := some 60 }

/-- People who know each other, and where they met. -/
def meetings : Schema :=
  ⟨.ofList [(Schema.since.id, Schema.since), (Schema.knows.id, Schema.knows), (venue.id, venue)], .empty⟩

theorem meetings_reachable : meetings.Reachable := by
  have third : Schema.acquaintance.addType venue = .ok meetings := rfl
  exact Schema.acquaintance_reachable.addType third

/-- An index over the years and places in which people met, and a search index over both. -/
def byMeeting : CompositeIndex :=
  ⟨.ofNat 23, "by meeting", .edge, [Schema.since.id, venue.id], .list, .enabled, some Schema.knows.id⟩

def searchedMeetings : MixedIndex :=
  ⟨.ofNat 24, "searched meetings", "es", .edge,
    [⟨Schema.since.id, .enabled, .default, none⟩, ⟨venue.id, .enabled, .textString, none⟩], none, .managed⟩

def meetingsCatalog : Catalog where
  byId := .ofList [(byMeeting.id, .composite byMeeting), (searchedMeetings.id, .mixed searchedMeetings)]
  byName := [(searchedMeetings.name, searchedMeetings.id), (byMeeting.name, byMeeting.id)]
  byKey := .ofList [(Schema.since.id, [byMeeting.id, searchedMeetings.id]),
    (venue.id, [byMeeting.id, searchedMeetings.id])]

def meetingsPlanner : Planner := ⟨meetingsCatalog, meetings.lookup, .sha256 none, .none, none⟩

theorem meetingsCatalog_reachable : meetingsCatalog.Reachable :=
  (Catalog.Reachable.empty.create (d := .composite byMeeting) rfl).create (d := .mixed searchedMeetings) rfl

theorem eq_searchedMeetings {i : MixedIndex} (known : meetingsPlanner.catalog.IsMixed i) :
    i = searchedMeetings := by
  have listed : IndexDefinition.mixed i ∈ meetingsCatalog.byId.entries.map (·.2) :=
    List.mem_map_of_mem (KeyMap.mem_entries.2 known)
  have all : meetingsCatalog.byId.entries.map (·.2) = [.composite byMeeting, .mixed searchedMeetings] := rfl
  simpa [all] using listed

/-- The fields are called after their keys. -/
theorem meetingsPlanner_namesApart : meetingsPlanner.NamesApart (.new .empty) := by
  intro i known f there g there' name left right
  obtain rfl := eq_searchedMeetings known
  simp only [searchedMeetings, List.mem_cons, List.not_mem_nil, or_false] at there there'
  obtain rfl | rfl := there <;> obtain rfl | rfl := there'
  · rfl
  · exact absurd (Except.ok.inj (left.trans right.symm)) (by decide)
  · exact absurd (Except.ok.inj (left.trans right.symm)) (by decide)
  · rfl

/-- Ann met Bob in Rome in 2001. -/
def annMet : Relation :=
  ⟨"k", Schema.knows.id, .edge "ann" "bob",
    .ofList [(Schema.since.id, .int 2001), (venue.id, .string "rome")]⟩

/-- Both keys lead to both indexes. The composite one is served once, with the time of the shorter lived key, and the
other one once for each key. -/
theorem plan_affects_annMet : ∃ set space',
    meetingsPlanner.plan (.relation annMet .add) (.new .empty) = (.ok set, space') ∧
      (meetingsPlanner.contributions annMet).length = 4 ∧
      set.composites.map (·.ttl) = [some 60] ∧ set.mixeds.map (fun u => (u.field, u.ttl)) =
        [("since", none), ("venue", some 60)] ∧
      meetingsPlanner.EntersJust annMet .add set.composites ∧
      meetingsPlanner.FillsJust (.new .empty) annMet .add set.mixeds := by
  refine ⟨_, _, rfl, rfl, rfl, rfl, ?_⟩
  exact plan_affects meetings_reachable rfl meetingsCatalog_reachable meetingsPlanner_namesApart rfl

end Planner

end GraphStore
