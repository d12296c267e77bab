import GraphStore.Proofs.Attempt
import GraphStore.Proofs.Index.Catalog

/-!
A catalog in use. Calls come in any order, and any of them may fail. However they go, the names and the keys
lead to just the indexes that there are: a key lists each index over it once, a name stands for an index of
that name, and a call that fails has changed nothing. What a creation entered, a drop takes out again.
-/
namespace GraphStore

/-- A call that may change a catalog. -/
inductive CatalogCall where
  | create (d : IndexDefinition)
  | addMixedField (index : SchemaId) (f : MixedField)
  | drop (name : String)

namespace Catalog

/-- A change that is checked before any of it is made. -/
def changing (change : Catalog → Except IndexFault Catalog) : Attempt Catalog IndexFault Unit := fun c =>
  match change c with
  | .ok c' => (.ok (), c')
  | .error fault => (.error fault, c)

/-- A drop in its steps. The name is taken out before the index is looked for, so a name that stood for no
index would be gone with the fault. -/
def dropping (name : String) : Attempt Catalog IndexFault IndexDefinition := fun c =>
  match c.idOf? name with
  | none => (.error (.unknownIndex name), c)
  | some id =>
    let unnamed := { c with byName := c.byName.filter (·.1 ≠ name) }
    match unnamed.get? id with
    | none => (.error (.unknownId id), unnamed)
    | some d =>
      (.ok d, { unnamed with
        byId := c.byId.erase id
        byKey := d.keys.foldl (fun byKey key => uncover byKey id key) c.byKey })

end Catalog

def CatalogCall.run : CatalogCall → Attempt Catalog IndexFault Unit
  | create d => Catalog.changing fun c => liftFault (c.create d)
  | addMixedField index f => Catalog.changing fun c => c.addMixedField index f
  | drop name => do
    let _ ← Catalog.dropping name
    return

namespace Catalog

/-- The catalog after some calls, whatever came of each. -/
def after (calls : List CatalogCall) : Catalog := calls.foldl (fun c call => (call.run c).2) .empty

/-- Every key that is listed has an index. -/
def Full (byKey : KeyMap (List SchemaId)) : Prop := ∀ key ids, byKey.get? key = some ids → ids ≠ []

variable {byKey byKey' : KeyMap (List SchemaId)} {id x key k : SchemaId} {keys : List SchemaId}

theorem Full.ext (full : Full byKey) (full' : Full byKey') (same : ∀ k, idsOver byKey k = idsOver byKey' k) :
    byKey = byKey' := by
  refine KeyMap.ext_get? fun k => ?_
  have here := same k
  rw [idsOver, idsOver] at here
  cases listed : byKey.get? k with
  | none =>
    cases listed' : byKey'.get? k with
    | none => rfl
    | some ids' =>
      rw [listed, listed'] at here
      exact absurd here.symm (full' k ids' listed')
  | some ids =>
    cases listed' : byKey'.get? k with
    | none =>
      rw [listed, listed'] at here
      exact absurd here (full k ids listed)
    | some ids' =>
      rw [listed, listed'] at here
      exact congrArg some here

theorem Full.cover (full : Full byKey) (id key : SchemaId) : Full (Catalog.cover byKey id key) := by
  intro k ids listed
  rw [Catalog.cover, KeyMap.get?_insert] at listed
  split at listed
  · rw [← Option.some.inj listed]
    simp
  · exact full k ids listed

theorem Full.uncover (full : Full byKey) (id key : SchemaId) : Full (Catalog.uncover byKey id key) := by
  intro k ids listed
  rw [Catalog.uncover] at listed
  split at listed
  · exact full k ids listed
  · dsimp only at listed
    split at listed
    · rw [KeyMap.get?_erase] at listed
      split at listed
      · cases listed
      · exact full k ids listed
    · next left_some =>
      rw [KeyMap.get?_insert] at listed
      split at listed
      · rw [← Option.some.inj listed]
        simpa using left_some
      · exact full k ids listed

theorem Full.foldl {change : KeyMap (List SchemaId) → SchemaId → KeyMap (List SchemaId)}
    (kept : ∀ byKey key, Full byKey → Full (change byKey key)) (full : Full byKey) (keys : List SchemaId) :
    Full (keys.foldl change byKey) := by
  induction keys generalizing byKey with
  | nil => exact full
  | cons key rest ih => exact ih (kept byKey key full)

theorem idsOver_cover_all (distinct : keys.Nodup) :
    idsOver (keys.foldl (fun byKey key => cover byKey id key) byKey) k =
      if k ∈ keys then idsOver byKey k ++ [id] else idsOver byKey k := by
  induction keys generalizing byKey with
  | nil => simp
  | cons key rest ih =>
    obtain ⟨fresh, distinct⟩ := List.nodup_cons.1 distinct
    rw [List.foldl_cons, ih distinct, idsOver_cover]
    by_cases same : k = key
    · simp [same, fresh]
    · simp [same]

/-- What is entered under keys and taken out again leaves them as they were. -/
theorem uncover_cover_all (full : Full byKey) (distinct : keys.Nodup)
    (fresh : ∀ k, id ∉ idsOver byKey k) :
    keys.foldl (fun byKey key => uncover byKey id key)
      (keys.foldl (fun byKey key => cover byKey id key) byKey) = byKey := by
  refine Full.ext (Full.foldl (fun _ key full => full.uncover id key)
    (Full.foldl (fun _ key full => full.cover id key) full keys) keys) full fun k => ?_
  have others : (idsOver byKey k).filter (· ≠ id) = idsOver byKey k := by
    refine List.filter_eq_self.2 fun x there => decide_eq_true ?_
    rintro rfl
    exact fresh k there
  rw [idsOver_uncover_all, idsOver_cover_all distinct]
  by_cases inside : k ∈ keys
  · rw [if_pos inside, if_pos inside, List.filter_append, others]
    simp
  · rw [if_neg inside, if_neg inside]

/-- What calls keep up besides that every index is found where it stands. -/
structure Tidy (c : Catalog) : Prop where
  /-- A name stands for an index of that name. -/
  meant : ∀ name id, c.idOf? name = some id → ∃ d, c.get? id = some d ∧ d.name = name
  keyed : ∀ id d, c.get? id = some d → d.keys ≠ [] ∧ d.keys.Nodup
  full : Full c.byKey
  once : ∀ key, (idsOver c.byKey key).Nodup

variable {c c' : Catalog} {d : IndexDefinition} {name : String} {f : MixedField}

theorem tidy_empty : Tidy Catalog.empty := ⟨nofun, nofun, nofun, fun _ => List.nodup_nil⟩

/-- An id that no index has is listed under no key. -/
theorem Sound.not_listed (sound : c.Sound) (free : c.get? id = none) (key : SchemaId) :
    id ∉ idsOver c.byKey key := by
  rw [sound.covered, free]
  simp

theorem tidy_create (sound : c.Sound) (tidy : c.Tidy) (h : c.create d = .ok c') : c'.Tidy := by
  obtain ⟨keyed, free, -, rfl⟩ := create_ok h
  constructor
  · intro name id known
    by_cases same : d.name = name
    · obtain rfl : d.id = id := by simpa [idOf?, same] using known
      exact ⟨d, by simp [get?, KeyMap.get?_insert], same⟩
    · obtain ⟨d', there, named⟩ := tidy.meant name id (by simpa [idOf?, same] using known)
      refine ⟨d', ?_, named⟩
      rw [get?, KeyMap.get?_insert, if_neg]
      · exact there
      · rintro rfl
        rw [free] at there
        cases there
  · intro id d' there
    rw [get?, KeyMap.get?_insert] at there
    split at there
    · obtain rfl := Option.some.inj there
      exact keyed
    · exact tidy.keyed id d' there
  · exact Full.foldl (fun _ key full => full.cover d.id key) tidy.full d.keys
  · intro key
    rw [idsOver_cover_all keyed.2]
    split
    · simpa using (tidy.once key).concat (sound.not_listed free key)
    · exact tidy.once key

theorem addMixedField_fresh (h : c.addMixedField id f = .ok c') {i : MixedIndex}
    (known : c.get? id = some (.mixed i)) : f.key ∉ i.fields.map (·.key) := by
  simp only [addMixedField, mixed, known] at h
  split at h <;> try contradiction
  next absent =>
  simpa [MixedIndex.field?] using absent

theorem tidy_addMixedField (sound : c.Sound) (tidy : c.Tidy) (h : c.addMixedField id f = .ok c') :
    c'.Tidy := by
  obtain ⟨i, known, rfl⟩ := addMixedField_ok h
  have fresh := addMixedField_fresh h known
  constructor
  · intro name id' named
    obtain ⟨d, there, same⟩ := tidy.meant name id' named
    rw [get?, KeyMap.get?_insert]
    split
    · next grown =>
      rw [grown, known] at there
      obtain rfl := Option.some.inj there
      exact ⟨_, rfl, same⟩
    · exact ⟨d, there, same⟩
  · intro id' d there
    rw [get?, KeyMap.get?_insert] at there
    split at there
    · obtain rfl := Option.some.inj there
      have distinct := (tidy.keyed id (.mixed i) known).2.concat fresh
      exact ⟨by simp [IndexDefinition.keys], by simpa [IndexDefinition.keys] using distinct⟩
    · exact tidy.keyed id' d there
  · exact tidy.full.cover id f.key
  · intro key
    rw [idsOver_cover]
    split
    · have unlisted : id ∉ idsOver c.byKey f.key := by
        rw [sound.covered, known]
        simpa [IndexDefinition.keys] using fresh
      simpa using (tidy.once f.key).concat unlisted
    · exact tidy.once key

theorem tidy_drop (tidy : c.Tidy) (h : c.drop name = .ok (d, c')) : c'.Tidy := by
  obtain ⟨id, gone, known, rfl⟩ := drop_ok h
  constructor
  · intro other id' named
    rw [idOf?_unnamed] at named
    split at named
    · cases named
    · next apart =>
      obtain ⟨d', there, same⟩ := tidy.meant other id' named
      refine ⟨d', ?_, same⟩
      rw [get?, KeyMap.get?_erase, if_neg]
      · exact there
      · rintro rfl
        obtain ⟨d'', there', same'⟩ := tidy.meant name id' gone
        rw [there'] at there
        exact apart (same.symm.trans (Option.some.inj there ▸ same'))
  · intro id' d' there
    rw [get?, KeyMap.get?_erase] at there
    split at there
    · cases there
    · exact tidy.keyed id' d' there
  · exact Full.foldl (fun _ key full => full.uncover id key) tidy.full d.keys
  · intro key
    rw [idsOver_uncover_all]
    split
    · exact (tidy.once key).filter _
    · exact tidy.once key

theorem Reachable.tidy (h : c.Reachable) : c.Tidy := by
  induction h with
  | empty => exact tidy_empty
  | create before accepted ih => exact tidy_create before.sound ih accepted
  | addMixedField before accepted ih => exact tidy_addMixedField before.sound ih accepted
  | drop _ accepted ih => exact tidy_drop ih accepted

/-- In its steps a drop comes to the same, since no name stands for an index that is not there. -/
theorem Tidy.dropping_run (tidy : c.Tidy) (name : String) : dropping name c =
    match c.drop name with
    | .ok (d, c') => (.ok d, c')
    | .error fault => (.error fault, c) := by
  rw [dropping, drop]
  cases named : c.idOf? name with
  | none => rfl
  | some id =>
    obtain ⟨d, there, -⟩ := tidy.meant name id named
    have stands : get? { c with byName := c.byName.filter (·.1 ≠ name) } id = some d := there
    simp only [stands, there]

theorem run_create (c : Catalog) (d : IndexDefinition) : (CatalogCall.create d).run c =
    match c.create d with
    | .ok c' => (.ok (), c')
    | .error fault => (.error (.core fault), c) := by
  rw [CatalogCall.run, changing]
  cases c.create d <;> rfl

/-- A call leads on to a catalog that its change was not refused for, or it fails and stays. -/
theorem Reachable.run (h : c.Reachable) (call : CatalogCall) :
    (∃ c', call.run c = (.ok (), c') ∧ c'.Reachable) ∨ ∃ fault, call.run c = (.error fault, c) := by
  cases call with
  | create d =>
    rw [run_create]
    cases made : c.create d with
    | ok c' => exact .inl ⟨c', rfl, h.create made⟩
    | error fault => exact .inr ⟨_, rfl⟩
  | addMixedField index f =>
    rw [CatalogCall.run, changing]
    cases made : c.addMixedField index f with
    | ok c' => exact .inl ⟨c', rfl, h.addMixedField made⟩
    | error fault => exact .inr ⟨_, rfl⟩
  | drop name =>
    have steps := h.tidy.dropping_run name
    cases made : c.drop name with
    | ok pair =>
      rw [made] at steps
      exact .inl ⟨pair.2, Attempt.bind_run_ok steps, h.drop made⟩
    | error fault =>
      rw [made] at steps
      exact .inr ⟨fault, Attempt.bind_run_error steps⟩

theorem reachable_after (calls : List CatalogCall) : (after calls).Reachable := by
  suffices kept : ∀ c : Catalog, c.Reachable → (calls.foldl (fun c call => (call.run c).2) c).Reachable from
    kept .empty .empty
  induction calls with
  | nil => exact fun _ reached => reached
  | cons call rest ih =>
    intro c reached
    obtain ⟨c', run, reached'⟩ | ⟨fault, run⟩ := reached.run call
    · rw [List.foldl_cons, run]
      exact ih c' reached'
    · rw [List.foldl_cons, run]
      exact ih c reached

/-- A drop takes out all that the creation entered. -/
theorem Reachable.dropping_created (h : c.Reachable) (made : c.create d = .ok c') :
    dropping d.name c' = (.ok d, c) := by
  obtain ⟨keyed, free, unnamed, rfl⟩ := create_ok made
  have names : ((d.name, d.id) :: c.byName).filter (·.1 ≠ d.name) = c.byName := by
    rw [List.filter_cons_of_neg (by simp), List.filter_eq_self]
    intro e there
    rw [idOf?, Option.map_eq_none_iff, List.find?_eq_none] at unnamed
    simpa using unnamed e there
  have ids : (c.byId.insert d.id d).erase d.id = c.byId := by
    refine KeyMap.ext_get? fun id => ?_
    rw [KeyMap.get?_erase, KeyMap.get?_insert]
    by_cases same : id = d.id
    · rw [if_pos same, same]
      exact free.symm
    · rw [if_neg same, if_neg same]
  have keys := uncover_cover_all h.tidy.full keyed.2 fun k => h.sound.not_listed free k
  have found : idOf? ⟨c.byId.insert d.id d, (d.name, d.id) :: c.byName,
      d.keys.foldl (fun byKey key => cover byKey d.id key) c.byKey⟩ d.name = some d.id := by simp [idOf?]
  have stands : (c.byId.insert d.id d).get? d.id = some d := by simp [KeyMap.get?_insert]
  simp only [dropping, found, get?, stands, names, ids, keys]

/-- All lookups tell of the same indexes. -/
structure Consistent (c : Catalog) : Prop where
  ids : (c.byId.values.map (·.id)).Nodup
  names : (c.byId.values.map (·.name)).Nodup
  keys : ∀ d ∈ c.byId.values, d.keys ≠ [] ∧ d.keys.Nodup
  byId : ∀ id d, c.get? id = some d ↔ d ∈ c.byId.values ∧ d.id = id
  byName : ∀ name d, c.named? name = some d ↔ d ∈ c.byId.values ∧ d.name = name
  byKey : ∀ key d, d ∈ c.indexesForKey key ↔ d ∈ c.byId.values ∧ key ∈ d.keys
  ascending : ∀ key, (c.indexesForKey key).Pairwise fun a b => a.id < b.id
  /-- No id is listed under a key twice, and none without an index over it. -/
  listed : ∀ key, ((c.indexesForKey key).map (·.id)).Perm (idsOver c.byKey key)

theorem Reachable.consistent (h : c.Reachable) : c.Consistent := by
  have sound := h.sound
  have ascending := ascending_values sound
  have listed (key : SchemaId) : (c.indexesForKey key).Pairwise fun a b => a.id < b.id :=
    ascending.filter _
  constructor
  · exact nodup_ids ascending
  · refine List.Nodup.map_on (fun d there d' there' same => ?_) (nodup_ids ascending).of_map
    rw [mem_values sound] at there there'
    have one := h.eq_of_name there there' same
    rw [one, there'] at there
    exact (Option.some.inj there).symm
  · exact fun d there => h.tidy.keyed d.id d ((mem_values sound).1 there)
  · intro id d
    rw [mem_values sound]
    constructor
    · intro there
      obtain rfl := sound.named id d there
      exact ⟨there, rfl⟩
    · rintro ⟨there, rfl⟩
      exact there
  · intro name d
    rw [mem_values sound, named?, Option.bind_eq_some_iff]
    constructor
    · rintro ⟨id, known, there⟩
      obtain ⟨d', there', named⟩ := h.tidy.meant name id known
      rw [there] at there'
      obtain rfl := Option.some.inj there'
      rw [sound.named id d there]
      exact ⟨there, named⟩
    · rintro ⟨there, rfl⟩
      exact ⟨d.id, h.named d.id d there, there⟩
  · intro key d
    rw [mem_indexesForKey sound, mem_values sound]
  · exact listed
  · intro key
    refine (List.perm_ext_iff_of_nodup (nodup_ids (listed key)) (h.tidy.once key)).2 fun id => ?_
    rw [sound.covered, List.mem_map]
    constructor
    · rintro ⟨d, there, rfl⟩
      exact ⟨d, (mem_indexesForKey sound).1 there⟩
    · rintro ⟨d, there, covers⟩
      obtain rfl := sound.named id d there
      exact ⟨d, (mem_indexesForKey sound).2 ⟨there, covers⟩, rfl⟩

/-- After any calls all lookups agree. Of a further call nothing stays if it fails, and nothing of a
creation stays if its index is dropped. -/
theorem consistent_after (calls : List CatalogCall) : (after calls).Consistent ∧
    (∀ call c' fault, CatalogCall.run call (after calls) = (.error fault, c') → c' = after calls) ∧
    ∀ d c', CatalogCall.run (.create d) (after calls) = (.ok (), c') →
      dropping d.name c' = (.ok d, after calls) := by
  have reached := reachable_after calls
  refine ⟨reached.consistent, fun call c' fault failed => ?_, fun d c' made => ?_⟩
  · obtain ⟨_, run, -⟩ | ⟨_, run⟩ := reached.run call
    · cases run.symm.trans failed
    · exact (Prod.mk.inj (run.symm.trans failed)).2.symm
  · rw [run_create] at made
    cases created : (after calls).create d with
    | ok c'' =>
      rw [created] at made
      obtain rfl := (Prod.mk.inj made).2
      exact reached.dropping_created created
    | error fault =>
      rw [created] at made
      cases made

/-- A search index over no label, which comes to cover a second key. -/
def searched : MixedIndex :=
  ⟨.ofNat 30, "search", "es", .vertex, [⟨.ofNat 10, .enabled, .default, none⟩], none, .managed⟩

/-- An index over both keys. -/
def byBoth : IndexDefinition :=
  .composite ⟨.ofNat 20, "by both", .vertex, [.ofNat 12, .ofNat 10], .list, .enabled, none⟩

/-- The second and the last of these calls fail. -/
def growing : List CatalogCall :=
  [.create (.mixed searched), .create (.mixed searched),
    .addMixedField searched.id ⟨.ofNat 12, .enabled, .default, none⟩, .drop byBoth.name]

theorem consistent_after_growing : ∃ c', CatalogCall.run (.create byBoth) (after growing) = (.ok (), c') ∧
    ((c'.indexesForKey (.ofNat 12)).map (·.id) = [byBoth.id, searched.id] ∧
      dropping byBoth.name c' = (.ok byBoth, after growing)) ∧
    CatalogCall.run (.drop byBoth.name) (after growing) =
      (.error (.unknownIndex byBoth.name), after growing) := by
  obtain ⟨-, -, restored⟩ := consistent_after growing
  exact ⟨_, rfl, ⟨by decide, restored byBoth _ rfl⟩, rfl⟩

end Catalog

end GraphStore
