import GraphStore.Proofs.Index.CatalogUse
import GraphStore.Proofs.Index.FieldWrites
import GraphStore.Proofs.Index.Registration

/-!
What a plan makes of a relation. The plan goes through the keys of the relation, and for each key through the
indexes over it; what it meets there are contributions, each with an update of its own. Lookups of fields fill
the cache and change nothing else, so the updates are known from where the plan starts, and the plan succeeds
just if there is one for each contribution.
-/
namespace GraphStore

namespace FieldSpace

/-- Lookups find in the one space what they find in the other. -/
def Alike (types : Types) (indexes : MixedIndex → Prop) (s s' : FieldSpace) : Prop :=
  ∀ i, indexes i → (names types i s').1 = (names types i s).1

instance (types : Types) (indexes : MixedIndex → Prop) : Std.Refl (Alike types indexes) :=
  ⟨fun _ _ _ => rfl⟩

instance (types : Types) (indexes : MixedIndex → Prop) : IsTrans FieldSpace (Alike types indexes) :=
  ⟨fun _ _ _ first second i one => (second i one).trans (first i one)⟩

variable {types : Types} {indexes : MixedIndex → Prop} {s s' : FieldSpace} {i j : MixedIndex}
variable {key : SchemaId}

/-- A lookup gives what is cached, or else the names that the index has now, and leaves these in the cache. -/
theorem names_run (types : Types) (i : MixedIndex) (s : FieldSpace) :
    names types i s = match s.cache.entries.get? i.id with
      | some held => (.ok held, s)
      | none => match FieldNames.ofIndex types s.defaults i with
        | .ok made =>
          (.ok made, { s with cache := { s.cache with entries := s.cache.entries.insert i.id made } })
        | .error fault => (.error (.core fault), s) := by
  rw [names, namesMeanwhile, FieldCache.start]
  cases s.cache.entries.get? i.id with
  | some held => rfl
  | none =>
    cases made : FieldNames.ofIndex types s.defaults i <;> simp [finish, made, FieldCache.finish]

theorem moves_alike_names (apart : FieldTraffic.Apart indexes) (one : indexes j) :
    (names types j).Moves (Alike types indexes) := by
  intro s i other
  rw [names_run types j s]
  cases cached : s.cache.entries.get? j.id with
  | some held => rfl
  | none =>
    cases made : FieldNames.ofIndex types s.defaults j with
    | error fault => rfl
    | ok fresh =>
      simp only [names_run types i, KeyMap.get?_insert]
      by_cases same : i.id = j.id
      · obtain rfl := apart i j other one (.inl same)
        simp only [if_true, cached, made]
      · simp only [if_neg same]
        cases s.cache.entries.get? i.id with
        | some held => rfl
        | none => cases FieldNames.ofIndex types s.defaults i <;> rfl

theorem moves_alike (apart : FieldTraffic.Apart indexes) (one : indexes j) (key : SchemaId) :
    (resolve types j key).Moves (Alike types indexes) := by
  refine (moves_alike_names apart one).bind fun names => ?_
  split
  · exact .pure _
  · exact .of_still fun _ => rfl

theorem Alike.resolve (alike : Alike types indexes s s') (one : indexes i) (key : SchemaId) :
    (resolve types i key s').1 = (resolve types i key s).1 := by
  have same := alike i one
  rw [FieldSpace.resolve]
  cases before : names types i s with
  | mk looked t =>
    cases after : names types i s' with
    | mk looked' t' =>
      rw [before, after] at same
      obtain rfl : looked' = looked := same
      cases looked' with
      | error fault => rw [Attempt.bind_run_error before, Attempt.bind_run_error after]
      | ok found =>
        rw [Attempt.bind_run_ok before, Attempt.bind_run_ok after]
        cases found.get? key <;> rfl

end FieldSpace

/-- Plans from which lookups find the same. -/
def PlanState.Alike (types : Types) (indexes : MixedIndex → Prop) (s s' : PlanState) : Prop :=
  s.space.Alike types indexes s'.space

instance (types : Types) (indexes : MixedIndex → Prop) : Std.Refl (PlanState.Alike types indexes) :=
  ⟨fun s => Std.Refl.refl s.space⟩

instance (types : Types) (indexes : MixedIndex → Prop) : IsTrans PlanState (PlanState.Alike types indexes) :=
  ⟨fun s _ _ first second => IsTrans.trans s.space _ _ first second⟩

namespace Match

variable {r : Relation} {fields : List SchemaId} {m : Match}

theorem keys_of_ofRelation? (h : ofRelation? r fields = some m) : m.map (·.key) = fields := by
  induction fields generalizing m with
  | nil =>
    obtain rfl := Option.some.inj h
    rfl
  | cons key rest ih =>
    rw [ofRelation?] at h
    split at h
    · next v others _ later =>
      obtain rfl := Option.some.inj h
      rw [List.map_cons, ih later]
    · cases h

/-- A relation matches fields that it carries all. -/
theorem exists_ofRelation?_iff :
    (∃ m, ofRelation? r fields = some m) ↔ ∀ key ∈ fields, (r.get? key).isSome = true := by
  induction fields with
  | nil => simp [ofRelation?]
  | cons key rest ih =>
    rw [List.forall_mem_cons, ← ih, ofRelation?]
    cases r.get? key with
    | none => simp
    | some v => cases ofRelation? r rest <;> simp

end Match

/-- If no key has two fields, a key has the field that is declared for it. -/
theorem MixedIndex.field?_eq_some_iff {i : MixedIndex} (distinct : (i.fields.map (·.key)).Nodup) {key : SchemaId}
    {f : MixedField} : i.field? key = some f ↔ f ∈ i.fields ∧ f.key = key := by
  constructor
  · intro found
    exact ⟨List.mem_of_find?_eq_some found, by simpa using List.find?_some found⟩
  · rintro ⟨declared, rfl⟩
    cases found : i.field? f.key with
    | none => simpa using List.find?_eq_none.1 found f declared
    | some g =>
      have named : g.key = f.key := by simpa using List.find?_some found
      rw [List.inj_on_of_nodup_map distinct (List.mem_of_find?_eq_some found) declared named]

/-- What a relation has for an index: a match, or a value for a field. -/
inductive Contribution where
  | composite (i : CompositeIndex) (m : Match)
  | mixed (i : MixedIndex) (key : SchemaId) (v : Value)

/-- The two do not go to one field. -/
def Contribution.Apart : Contribution → Contribution → Prop
  | mixed i key _, mixed j key' _ => i.id = j.id → key ≠ key'
  | _, _ => True

namespace Planner

open Planning

/-- What a relation has for one of the indexes over one of its keys. -/
def contributionsTo (r : Relation) (key : SchemaId) (v : Value) : IndexDefinition → List Contribution
  | .composite i =>
    if i.status.isMaintained then (Match.ofRelation? r i.fields).toList.map (.composite i) else []
  | .mixed i =>
    match i.field? key with
    | none => []
    | some f => if f.status.isMaintained then [.mixed i key v] else []

/-- What a relation has for indexes, as it is met key by key. -/
def contributions (c : Planner) (r : Relation) : List Contribution :=
  (r.properties.entries.filter fun e => !ImplicitKey.isReserved e.1).flatMap fun e =>
    (c.applying e.1 r.category (some r.type)).flatMap (contributionsTo r e.1 e.2)

/-- The update for a contribution, where the names of fields are looked up in a space. -/
def updateFor (c : Planner) (space : FieldSpace) (u : UpdateContext) (r : Relation) :
    Contribution → Except IndexFault IndexUpdate
  | .composite i m => liftFault (c.compositeUpdate u i m)
  | .mixed i key v => do
    let name ← (FieldSpace.resolve c.types i key space).1
    let type ← liftFault (c.types.existing key)
    return c.mixedUpdate u i name type v r.properties

/-- From where lookups find what they find in the space, the step makes the updates of the contributions, and
does so without a fault if there is one for each of them. -/
structure Yields (c : Planner) (space : FieldSpace) (u : UpdateContext) (r : Relation) (step : Planning Unit)
    (ws : List Contribution) : Prop where
  alike : step.Moves (PlanState.Alike c.types c.catalog.IsMixed)
  makes : ∀ s s', space.Alike c.types c.catalog.IsMixed s.space → step s = (.ok (), s') →
    ∃ us, s'.planned = s.planned ++ us ∧ ws.map (c.updateFor space u r) = us.map .ok
  succeeds : ∀ s, space.Alike c.types c.catalog.IsMixed s.space →
    (∀ w ∈ ws, ∃ x, c.updateFor space u r w = .ok x) → ∃ s', step s = (.ok (), s')

variable {c : Planner} {space : FieldSpace} {u : UpdateContext} {r : Relation} {α : Type}
variable {step next : Planning Unit} {ws vs : List Contribution} {w : Contribution}

theorem yields_nothing : c.Yields space u r (pure ()) [] where
  alike := .pure ()
  makes s s' _ run := by
    obtain ⟨-, rfl⟩ := Prod.mk.inj run
    exact ⟨[], (List.append_nil _).symm, rfl⟩
  succeeds s _ _ := ⟨s, rfl⟩

theorem Yields.append (first : c.Yields space u r step ws) (second : c.Yields space u r next vs) :
    c.Yields space u r (step >>= fun _ => next) (ws ++ vs) := by
  have onward {s middle : PlanState} (here : space.Alike c.types c.catalog.IsMixed s.space)
      (one : step s = (.ok (), middle)) : space.Alike c.types c.catalog.IsMixed middle.space := by
    have moved := first.alike s
    rw [one] at moved
    exact IsTrans.trans _ _ _ here moved
  refine ⟨first.alike.bind fun _ => second.alike, fun s s' here run => ?_, fun s here each => ?_⟩
  · obtain ⟨_, middle, one, two⟩ := Attempt.bind_run_ok_iff.1 run
    obtain ⟨us, planned, made⟩ := first.makes s middle here one
    obtain ⟨us', planned', made'⟩ := second.makes middle s' (onward here one) two
    refine ⟨us ++ us', by rw [planned', planned, List.append_assoc], ?_⟩
    rw [List.map_append, List.map_append, made, made']
  · obtain ⟨middle, one⟩ := first.succeeds s here fun w there => each w (List.mem_append_left _ there)
    obtain ⟨s', two⟩ := second.succeeds middle (onward here one) fun w there =>
      each w (List.mem_append_right _ there)
    exact ⟨s', Attempt.bind_run_ok_iff.2 ⟨(), middle, one, two⟩⟩

theorem yields_each {step : α → Planning Unit} {sent : α → List Contribution} {l : List α}
    (yields : ∀ a ∈ l, c.Yields space u r (step a) (sent a)) :
    c.Yields space u r (Attempt.each step l) (l.flatMap sent) := by
  induction l with
  | nil => exact yields_nothing
  | cons a rest ih =>
    obtain ⟨first, others⟩ := List.forall_mem_cons.1 yields
    exact first.append (ih others)

/-- An update that does not depend on names is made wherever the plan stands. -/
theorem yields_made {made : Except Fault IndexUpdate} (update : c.updateFor space u r w = liftFault made) :
    c.Yields space u r (do emit (← ofFault made)) [w] := by
  cases made with
  | error fault =>
    refine ⟨.of_still fun _ => rfl, fun s s' _ run => (nomatch (Prod.mk.inj run).1), fun s _ each => ?_⟩
    obtain ⟨x, same⟩ := each w List.mem_cons_self
    cases update.symm.trans same
  | ok x =>
    refine ⟨fun s => Std.Refl.refl s.space, fun s s' _ run => ?_, fun s _ _ => ⟨_, rfl⟩⟩
    obtain ⟨-, rfl⟩ := Prod.mk.inj run
    exact ⟨[x], rfl, by rw [List.map_singleton, update]; rfl⟩

theorem yields_planComposite (i : CompositeIndex) (found : List Match) :
    c.Yields space u r (c.planComposite u i found) (found.map (.composite i)) := by
  have all : c.Yields space u r (c.planComposite u i found) (found.flatMap fun m => [.composite i m]) :=
    yields_each fun m _ => yields_made rfl
  rwa [← List.map_eq_flatMap] at all

/-- The name of a field is looked up on the way, and found as at the start. -/
theorem yields_planField (reached : c.catalog.Reachable) {i : MixedIndex} (known : c.catalog.IsMixed i)
    (key : SchemaId) (v : Value) :
    c.Yields space u r (c.planField u i key v r.properties) (contributionsTo r key v (.mixed i)) := by
  rw [planField, contributionsTo]
  cases i.field? key with
  | none => exact yields_nothing
  | some f =>
    simp only
    split
    · have looks : (inSpace (FieldSpace.resolve c.types i key)).Moves
          (PlanState.Alike c.types c.catalog.IsMixed) :=
        fun s => FieldSpace.moves_alike reached.apart known key s.space
      have found {s : PlanState} (here : space.Alike c.types c.catalog.IsMixed s.space) :
          (inSpace (FieldSpace.resolve c.types i key) s).1 = (FieldSpace.resolve c.types i key space).1 :=
        here.resolve known key
      refine ⟨looks.bind fun name => (Attempt.Moves.of_still fun _ => rfl).bind fun type =>
        fun s => Std.Refl.refl s.space, fun s s' here run => ?_, fun s here each => ?_⟩
      · obtain ⟨name, _, resolved, rest⟩ := Attempt.bind_run_ok_iff.1 run
        obtain ⟨type, after, asked, made⟩ := Attempt.bind_run_ok_iff.1 rest
        obtain ⟨typed, rfl⟩ := ofFault_ok asked
        obtain ⟨-, rfl⟩ := Prod.mk.inj made
        obtain rfl : (inSpace (FieldSpace.resolve c.types i key) s).2 = after := by rw [resolved]
        have name_eq := (found here).symm.trans (congrArg Prod.fst resolved)
        refine ⟨[c.mixedUpdate u i name type v r.properties], rfl, ?_⟩
        rw [List.map_singleton, updateFor, name_eq, typed]
        rfl
      · obtain ⟨x, update⟩ := each _ List.mem_cons_self
        obtain ⟨name, name_eq, update⟩ := bind_ok_iff.1 update
        obtain ⟨type, typed, -⟩ := bind_ok_iff.1 update
        have resolved : inSpace (FieldSpace.resolve c.types i key) s = (.ok name, _) :=
          Prod.ext ((found here).trans name_eq) rfl
        rw [Attempt.bind_run_ok resolved]
        exact ⟨_, Attempt.bind_run_ok (Attempt.lift_run typed _)⟩
    · exact yields_nothing

theorem yields_planRelationIndex (reached : c.catalog.Reachable) {d : IndexDefinition}
    (known : c.catalog.get? d.id = some d) (key : SchemaId) (v : Value) :
    c.Yields space u r (c.planRelationIndex u r key v d) (contributionsTo r key v d) := by
  cases d with
  | mixed i => exact yields_planField reached known key v
  | composite i =>
    rw [planRelationIndex, contributionsTo]
    split
    · exact yields_planComposite i _
    · exact yields_nothing

/-- What the updates of a relation have in common. -/
def relationContext (r : Relation) (kind : UpdateKind) (type : RelationType) : UpdateContext :=
  ⟨.relation r.identity, kind, type.ttl⟩

theorem yields_planRelation (reached : c.catalog.Reachable) {type : RelationType}
    (typed : c.types.existing r.type = .ok type) (kind : UpdateKind) :
    c.Yields space (relationContext r kind type) r (c.planRelation r kind) (c.contributions r) := by
  rw [planRelation, typed]
  refine yields_each fun e _ => yields_each fun d there => ?_
  have listed := (Catalog.mem_indexesForKey reached.sound).1 (List.mem_filter.1 there).1
  exact yields_planRelationIndex reached listed.1 e.1 e.2

theorem mem_contributionsTo_composite {key : SchemaId} {v : Value} {i : CompositeIndex} :
    w ∈ contributionsTo r key v (.composite i) ↔
      i.status.isMaintained = true ∧ ∃ m, Match.ofRelation? r i.fields = some m ∧ w = .composite i m := by
  rw [contributionsTo]
  split
  · next maintained =>
    simp only [maintained, true_and, List.mem_map, Option.mem_toList, eq_comm (a := w)]
  · next disabled => simp [disabled]

theorem mem_contributionsTo_mixed {key : SchemaId} {v : Value} {i : MixedIndex} :
    w ∈ contributionsTo r key v (.mixed i) ↔
      ∃ f, i.field? key = some f ∧ f.status.isMaintained = true ∧ w = .mixed i key v := by
  rw [contributionsTo]
  cases found : i.field? key with
  | none => simp
  | some f =>
    simp only [Option.some.injEq, exists_eq_left']
    split
    · next maintained => simp [maintained]
    · next disabled => simp [disabled]

theorem apart_of_mem {key key' : SchemaId} {v v' : Value} {d d' : IndexDefinition} {w' : Contribution}
    (there : w ∈ contributionsTo r key v d) (there' : w' ∈ contributionsTo r key' v' d')
    (differ : d.id ≠ d'.id ∨ key ≠ key') : w.Apart w' := by
  cases d with
  | composite i =>
    obtain ⟨-, m, -, rfl⟩ := mem_contributionsTo_composite.1 there
    trivial
  | mixed i =>
    obtain ⟨f, -, -, rfl⟩ := mem_contributionsTo_mixed.1 there
    cases d' with
    | composite j =>
      obtain ⟨-, m, -, rfl⟩ := mem_contributionsTo_composite.1 there'
      trivial
    | mixed j =>
      obtain ⟨g, -, -, rfl⟩ := mem_contributionsTo_mixed.1 there'
      exact fun same => differ.resolve_left (not_not.2 same)

/-- No two contributions of a relation go to one field: keys are met once, and each index once for a key. -/
theorem apart_contributions (sound : c.catalog.Sound) : (c.contributions r).Pairwise Contribution.Apart := by
  have alone (key : SchemaId) (v : Value) (d : IndexDefinition) :
      (contributionsTo r key v d).Pairwise Contribution.Apart := by
    cases d with
    | composite i =>
      rw [contributionsTo]
      split
      · exact List.pairwise_map.2 (List.pairwise_of_forall fun _ _ => trivial)
      · exact .nil
    | mixed i =>
      rw [contributionsTo]
      cases i.field? key with
      | none => exact .nil
      | some f =>
        simp only
        split
        · exact List.pairwise_singleton ..
        · exact .nil
  refine List.pairwise_flatMap.2 ⟨fun e _ => List.pairwise_flatMap.2 ⟨fun d _ => alone e.1 e.2 d, ?_⟩, ?_⟩
  · have ids : (c.applying e.1 r.category (some r.type)).Pairwise fun d d' => d.id ≠ d'.id :=
      List.pairwise_map.1 (Catalog.nodup_ids
        (((Catalog.ascending_values sound).filter _).filter _))
    exact ids.imp fun {d d'} differ x there y there' => apart_of_mem there there' (.inl differ)
  · refine (r.properties.ascending.filter _).imp fun {e e'} below x there y there' => ?_
    obtain ⟨d, -, there⟩ := List.mem_flatMap.1 there
    obtain ⟨d', -, there'⟩ := List.mem_flatMap.1 there'
    refine apart_of_mem there there' (.inr fun same => ?_)
    rw [same, SchemaId.lt_iff] at below
    exact Nat.lt_irrefl _ below

/-- A contribution is met at a key that the relation carries, in an index over that key. -/
theorem mem_contributions (sound : c.catalog.Sound) : w ∈ c.contributions r ↔
    ∃ key v, r.get? key = some v ∧ ImplicitKey.isReserved key = false ∧
      ∃ d, c.catalog.get? d.id = some d ∧ key ∈ d.keys ∧ d.appliesTo r.category (some r.type) = true ∧
        w ∈ contributionsTo r key v d := by
  simp only [contributions, applying, List.mem_flatMap, List.mem_filter, Prod.exists, KeyMap.mem_entries,
    Bool.not_eq_true', Catalog.mem_indexesForKey sound, and_assoc]
  rfl

/-- The plan for a relation comes to a composite index: the index is kept up and covers the relation, which
carries all fields. From implicit keys alone the plan does not set out. -/
structure Meets (c : Planner) (r : Relation) (i : CompositeIndex) : Prop where
  known : c.catalog.get? i.id = some (.composite i)
  maintained : i.status.isMaintained = true
  applies : i.appliesTo r.category (some r.type) = true
  carried : ∀ key ∈ i.fields, (r.get? key).isSome = true
  explicit : ∃ key ∈ i.fields, ImplicitKey.isReserved key = false

/-- The relation has a value for a field that a mixed index declares and keeps up. -/
structure Fills (c : Planner) (r : Relation) (i : MixedIndex) (f : MixedField) (v : Value) : Prop where
  known : c.catalog.IsMixed i
  applies : i.appliesTo r.category (some r.type) = true
  declared : f ∈ i.fields
  maintained : f.status.isMaintained = true
  carried : ImplicitKey.isReserved f.key = false ∧ r.get? f.key = some v

theorem composite_mem_contributions (reached : c.catalog.Reachable) {i : CompositeIndex} {m : Match} :
    .composite i m ∈ c.contributions r ↔ c.Meets r i ∧ Match.ofRelation? r i.fields = some m := by
  rw [mem_contributions reached.sound]
  constructor
  · rintro ⟨key, v, -, free, d, known, inside, applies, there⟩
    cases d with
    | composite j =>
      obtain ⟨maintained, n, matched, same⟩ := mem_contributionsTo_composite.1 there
      obtain ⟨rfl, rfl⟩ := Contribution.composite.inj same
      have carried := Match.exists_ofRelation?_iff.1 ⟨m, matched⟩
      exact ⟨⟨known, maintained, applies, carried, key, inside, free⟩, matched⟩
    | mixed j =>
      obtain ⟨f, -, -, same⟩ := mem_contributionsTo_mixed.1 there
      cases same
  · rintro ⟨⟨known, maintained, applies, carried, key, inside, free⟩, matched⟩
    obtain ⟨v, there⟩ := Option.isSome_iff_exists.1 (carried key inside)
    exact ⟨key, v, there, free, .composite i, known, inside, applies,
      mem_contributionsTo_composite.2 ⟨maintained, m, matched, rfl⟩⟩

/-- However often the plan comes to an index, it has one match for it. -/
theorem composite_unique (reached : c.catalog.Reachable) {i j : CompositeIndex} {m n : Match}
    (left : .composite i m ∈ c.contributions r) (right : .composite j n ∈ c.contributions r)
    (same : i.id = j.id) : i = j ∧ m = n := by
  obtain ⟨meets, matched⟩ := (composite_mem_contributions reached).1 left
  obtain ⟨meets', matched'⟩ := (composite_mem_contributions reached).1 right
  have known := meets.known
  rw [same, meets'.known] at known
  obtain rfl := IndexDefinition.composite.inj (Option.some.inj known)
  exact ⟨rfl, Option.some.inj (matched.symm.trans matched')⟩

theorem mixed_mem_contributions (reached : c.catalog.Reachable) {i : MixedIndex} {key : SchemaId} {v : Value} :
    .mixed i key v ∈ c.contributions r ↔ ∃ f, f.key = key ∧ c.Fills r i f v := by
  rw [mem_contributions reached.sound]
  constructor
  · rintro ⟨k, x, carried, free, d, known, -, applies, there⟩
    cases d with
    | composite j =>
      obtain ⟨-, n, -, same⟩ := mem_contributionsTo_composite.1 there
      cases same
    | mixed j =>
      obtain ⟨f, found, maintained, same⟩ := mem_contributionsTo_mixed.1 there
      obtain ⟨rfl, rfl, rfl⟩ := Contribution.mixed.inj same
      obtain ⟨-, distinct⟩ := reached.tidy.keyed i.id (.mixed i) known
      obtain ⟨declared, rfl⟩ := (MixedIndex.field?_eq_some_iff distinct).1 found
      exact ⟨f, rfl, known, applies, declared, maintained, free, carried⟩
  · rintro ⟨f, rfl, known, applies, declared, maintained, free, carried⟩
    obtain ⟨-, distinct⟩ := reached.tidy.keyed i.id (.mixed i) known
    have found := (MixedIndex.field?_eq_some_iff distinct).2 ⟨declared, rfl⟩
    exact ⟨f.key, v, carried, free, .mixed i, known, List.mem_map_of_mem declared, applies,
      mem_contributionsTo_mixed.2 ⟨f, found, maintained, rfl⟩⟩

section Updates

variable {us : List IndexUpdate} (made : (c.contributions r).map (c.updateFor space u r) = us.map .ok)

include made

theorem mem_updates_iff {x : IndexUpdate} :
    x ∈ us ↔ ∃ w ∈ c.contributions r, c.updateFor space u r w = .ok x := by
  have listed : x ∈ us ↔ Except.ok x ∈ us.map (.ok : IndexUpdate → Except IndexFault IndexUpdate) := by simp
  rw [listed, ← made, List.mem_map]

theorem exists_update (contributed : w ∈ c.contributions r) :
    ∃ x ∈ us, c.updateFor space u r w = .ok x := by
  have listed : c.updateFor space u r w ∈ us.map .ok := made ▸ List.mem_map_of_mem contributed
  obtain ⟨x, there, update⟩ := List.mem_map.1 listed
  exact ⟨x, there, update.symm⟩

end Updates

variable {kind : UpdateKind}

/-- What a plan for a relation is made of, and what it then has for each contribution. -/
theorem planRelation_ok (reached : c.catalog.Reachable) {space' : FieldSpace} {set : UpdateSet}
    (planned : c.plan (.relation r kind) space = (.ok set, space')) :
    ∃ type us, c.types.existing r.type = .ok type ∧ set = UpdateSet.empty.insertAll us ∧
      (c.contributions r).map (c.updateFor space (relationContext r kind type) r) = us.map .ok := by
  obtain ⟨after, run, rfl, -⟩ := plan_ok planned
  obtain ⟨type, _, found, -⟩ := Attempt.bind_run_ok_iff.1 run
  obtain ⟨typed, rfl⟩ := ofFault_ok found
  have here : space.Alike c.types c.catalog.IsMixed space := Std.Refl.refl space
  obtain ⟨us, listed, made⟩ := (yields_planRelation reached typed kind).makes ⟨space, []⟩ after here run
  obtain rfl : us = after.planned := listed.symm
  exact ⟨type, _, typed, rfl, made⟩

/-- A plan for a relation succeeds just if its type is known and each contribution has an update. -/
theorem exists_plan_relation_iff (reached : c.catalog.Reachable) :
    (∃ set space', c.plan (.relation r kind) space = (.ok set, space')) ↔
      ∃ type, c.types.existing r.type = .ok type ∧
        ∀ w ∈ c.contributions r, ∃ x, c.updateFor space (relationContext r kind type) r w = .ok x := by
  constructor
  · rintro ⟨set, space', planned⟩
    obtain ⟨type, us, typed, -, made⟩ := planRelation_ok reached planned
    refine ⟨type, typed, fun w contributed => ?_⟩
    obtain ⟨x, -, update⟩ := exists_update made contributed
    exact ⟨x, update⟩
  · rintro ⟨type, typed, each⟩
    obtain ⟨after, run⟩ :=
      (yields_planRelation reached typed kind).succeeds ⟨space, []⟩ (Std.Refl.refl _) each
    refine ⟨UpdateSet.empty.insertAll after.planned, after.space, ?_⟩
    rw [plan, planInto, planMutation, run]

end Planner

end GraphStore
