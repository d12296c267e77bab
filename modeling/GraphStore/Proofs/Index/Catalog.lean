import GraphStore.Index.Catalog
import GraphStore.Proofs.KeyMap

/-!
The catalogs that changes lead to. In each of them an index stands under its own id, is found by every key
that it covers and by no other, a composite index names keys, and each of them once, and no two indexes share
a name.
-/
namespace GraphStore.Catalog

/-- A catalog is reached from the empty one by changes that are not refused. -/
inductive Reachable : Catalog → Prop where
  | empty : Reachable Catalog.empty
  | create {c c' : Catalog} {d : IndexDefinition} :
      Reachable c → c.create d = .ok c' → Reachable c'
  | addMixedField {c c' : Catalog} {id : SchemaId} {f : MixedField} :
      Reachable c → c.addMixedField id f = .ok c' → Reachable c'
  | drop {c c' : Catalog} {name : String} {d : IndexDefinition} :
      Reachable c → c.drop name = .ok (d, c') → Reachable c'

/-- The ids that a map from keys holds for a key. -/
def idsOver (byKey : KeyMap (List SchemaId)) (key : SchemaId) : List SchemaId :=
  (byKey.get? key).getD []

structure Sound (c : Catalog) : Prop where
  named : ∀ id d, c.get? id = some d → d.id = id
  covered : ∀ id key, id ∈ idsOver c.byKey key ↔ ∃ d, c.get? id = some d ∧ key ∈ d.keys
  distinct : ∀ id i, c.get? id = some (.composite i) → i.fields ≠ [] ∧ i.fields.Nodup

variable {byKey : KeyMap (List SchemaId)} {id x key k : SchemaId} {keys : List SchemaId}

theorem idsOver_cover :
    idsOver (cover byKey id key) k = if k = key then idsOver byKey key ++ [id] else idsOver byKey k := by
  rw [idsOver, cover, KeyMap.get?_insert]
  by_cases same : k = key <;> simp [same, idsOver]

theorem mem_cover : x ∈ idsOver (cover byKey id key) k ↔ x ∈ idsOver byKey k ∨ x = id ∧ k = key := by
  rw [idsOver_cover]
  by_cases same : k = key <;> simp [same]

theorem mem_cover_all : x ∈ idsOver (keys.foldl (fun byKey key => cover byKey id key) byKey) k ↔
    x ∈ idsOver byKey k ∨ x = id ∧ k ∈ keys := by
  induction keys generalizing byKey with
  | nil => simp
  | cons key rest ih =>
    rw [List.foldl_cons, ih, mem_cover, List.mem_cons, or_assoc, and_or_left]

theorem idsOver_uncover : idsOver (uncover byKey id key) k =
    if k = key then (idsOver byKey key).filter (· ≠ id) else idsOver byKey k := by
  simp only [uncover]
  cases there : byKey.get? key with
  | none => by_cases same : k = key <;> simp [idsOver, there, same]
  | some ids =>
    simp only
    split
    · next none_left =>
      have gone := List.isEmpty_iff.1 none_left
      by_cases same : k = key <;> simp [idsOver, KeyMap.get?_erase, there, same]
      simpa using gone
    · by_cases same : k = key <;> simp [idsOver, KeyMap.get?_insert, there, same]

theorem idsOver_uncover_all : idsOver (keys.foldl (fun byKey key => uncover byKey id key) byKey) k =
    if k ∈ keys then (idsOver byKey k).filter (· ≠ id) else idsOver byKey k := by
  induction keys generalizing byKey with
  | nil => simp
  | cons key rest ih =>
    rw [List.foldl_cons, ih, idsOver_uncover]
    by_cases same : k = key
    · subst same
      by_cases again : k ∈ rest <;> simp [again, List.filter_filter]
    · simp [same]

theorem mem_uncover_all : x ∈ idsOver (keys.foldl (fun byKey key => uncover byKey id key) byKey) k ↔
    x ∈ idsOver byKey k ∧ ¬(x = id ∧ k ∈ keys) := by
  rw [idsOver_uncover_all]
  by_cases inside : k ∈ keys <;> simp [inside]

/-- A key that is not repeated has not been seen either. -/
theorem nodup_of_repeatedKey? {seen keys : List SchemaId} (h : repeatedKey? seen keys = none) :
    keys.Nodup ∧ ∀ key ∈ keys, key ∉ seen := by
  induction keys generalizing seen with
  | nil => simp
  | cons key rest ih =>
    rw [repeatedKey?] at h
    split at h
    · cases h
    · next fresh =>
      obtain ⟨distinct, apart⟩ := ih h
      refine ⟨List.nodup_cons.2 ⟨fun again => apart key again List.mem_cons_self, distinct⟩, ?_⟩
      intro k member
      rcases List.mem_cons.1 member with rfl | later
      · exact fresh
      · exact fun before => apart k later (List.mem_cons_of_mem _ before)

variable {c c' : Catalog} {d : IndexDefinition}

theorem create_ok (h : c.create d = .ok c') : (d.keys ≠ [] ∧ d.keys.Nodup) ∧ c.get? d.id = none ∧
    c.idOf? d.name = none ∧ c' = ⟨c.byId.insert d.id d, (d.name, d.id) :: c.byName,
      d.keys.foldl (fun byKey key => cover byKey d.id key) c.byKey⟩ := by
  simp only [create] at h
  split at h <;> try contradiction
  split at h <;> try contradiction
  next filled =>
  split at h <;> try contradiction
  next distinct =>
  split at h <;> try contradiction
  next unnamed =>
  split at h <;> try contradiction
  next free =>
  refine ⟨⟨by simpa using filled, (nodup_of_repeatedKey? distinct).1⟩, ?_, by simpa using unnamed,
    (Except.ok.inj h).symm⟩
  simpa [KeyMap.contains, get?] using free

theorem addMixedField_ok {f : MixedField} (h : c.addMixedField id f = .ok c') :
    ∃ i, c.get? id = some (.mixed i) ∧
      c' = { c with
        byId := c.byId.insert id (.mixed { i with fields := i.fields ++ [f] })
        byKey := cover c.byKey id f.key } := by
  simp only [addMixedField, mixed] at h
  split at h <;> try contradiction
  next i found =>
  split at found <;> try contradiction
  next there =>
  obtain rfl := Except.ok.inj found
  split at h <;> try contradiction
  exact ⟨_, there, (Except.ok.inj h).symm⟩

theorem drop_ok {name : String} (h : c.drop name = .ok (d, c')) :
    ∃ id, c.idOf? name = some id ∧ c.get? id = some d ∧
      c' = ⟨c.byId.erase id, c.byName.filter (·.1 ≠ name),
        d.keys.foldl (fun byKey key => uncover byKey id key) c.byKey⟩ := by
  simp only [drop] at h
  split at h <;> try contradiction
  next id known =>
  split at h <;> try contradiction
  next d' there =>
  obtain ⟨rfl, rfl⟩ := Prod.mk.inj (Except.ok.inj h)
  exact ⟨id, known, there, rfl⟩

theorem sound_create (sound : c.Sound) (h : c.create d = .ok c') : c'.Sound := by
  obtain ⟨distinct, free, -, rfl⟩ := create_ok h
  constructor
  · intro id d' there
    rw [get?, KeyMap.get?_insert] at there
    split at there
    · next same => rw [← Option.some.inj there, same]
    · exact sound.named id d' there
  · intro id key
    rw [mem_cover_all, sound.covered]
    simp only [get?, KeyMap.get?_insert] at free ⊢
    by_cases same : id = d.id
    · simp [same, free]
    · simp [same]
  · intro id i there
    rw [get?, KeyMap.get?_insert] at there
    split at there
    · obtain rfl := Option.some.inj there
      exact distinct
    · exact sound.distinct id i there

theorem sound_addMixedField {f : MixedField} (sound : c.Sound) (h : c.addMixedField id f = .ok c') :
    c'.Sound := by
  obtain ⟨i, known, rfl⟩ := addMixedField_ok h
  constructor
  · intro id' d there
    rw [get?, KeyMap.get?_insert] at there
    split at there
    · next same =>
      rw [← Option.some.inj there, same]
      exact sound.named id (.mixed i) known
    · exact sound.named id' d there
  · intro id' key
    rw [mem_cover, sound.covered]
    simp only [get?, KeyMap.get?_insert] at known ⊢
    by_cases same : id' = id
    · simp [same, known, IndexDefinition.keys, eq_comm]
    · simp [same]
  · intro id' j there
    rw [get?, KeyMap.get?_insert] at there
    split at there
    · cases there
    · exact sound.distinct id' j there

theorem sound_drop {name : String} (sound : c.Sound) (h : c.drop name = .ok (d, c')) : c'.Sound := by
  obtain ⟨id, -, known, rfl⟩ := drop_ok h
  constructor
  · intro id' d' there
    rw [get?, KeyMap.get?_erase] at there
    split at there
    · cases there
    · exact sound.named id' d' there
  · intro id' key
    rw [mem_uncover_all, sound.covered]
    simp only [get?, KeyMap.get?_erase] at known ⊢
    by_cases same : id' = id
    · simp [same, known]
    · simp [same]
  · intro id' i there
    rw [get?, KeyMap.get?_erase] at there
    split at there
    · cases there
    · exact sound.distinct id' i there

theorem Reachable.sound (h : c.Reachable) : c.Sound := by
  induction h with
  | empty => exact ⟨nofun, by simp [idsOver, get?, Catalog.empty], nofun⟩
  | create _ accepted ih => exact sound_create ih accepted
  | addMixedField _ accepted ih => exact sound_addMixedField ih accepted
  | drop _ accepted ih => exact sound_drop ih accepted

theorem mem_values (sound : c.Sound) : d ∈ c.byId.values ↔ c.get? d.id = some d := by
  rw [KeyMap.values, List.mem_map]
  constructor
  · rintro ⟨⟨id, d'⟩, there, rfl⟩
    have known : c.get? id = some d' := KeyMap.mem_entries.1 there
    rw [sound.named id d' known]
    exact known
  · exact fun there => ⟨(d.id, d), KeyMap.mem_entries.2 there, rfl⟩

theorem ascending_values (sound : c.Sound) : c.byId.values.Pairwise fun a b => a.id < b.id := by
  rw [KeyMap.values, List.pairwise_map]
  refine c.byId.ascending.imp_of_mem fun {a b} there there' below => ?_
  rwa [sound.named a.1 a.2 (KeyMap.mem_entries.1 there), sound.named b.1 b.2 (KeyMap.mem_entries.1 there')]

theorem nodup_ids {l : List IndexDefinition} (ascending : l.Pairwise fun a b => a.id < b.id) :
    (l.map (·.id)).Nodup := by
  rw [List.Nodup, List.pairwise_map]
  refine ascending.imp fun {a b} below same => ?_
  rw [same, SchemaId.lt_iff] at below
  exact Nat.lt_irrefl _ below

/-- The indexes over a key are those that list it. -/
theorem mem_indexesForKey (sound : c.Sound) :
    d ∈ c.indexesForKey key ↔ c.get? d.id = some d ∧ key ∈ d.keys := by
  rw [indexesForKey, List.mem_filter, mem_values sound, decide_eq_true_eq]
  refine and_congr_right fun there => ?_
  rw [show (c.byKey.get? key).getD [] = idsOver c.byKey key from rfl, sound.covered, there]
  simp

theorem mem_mixedIndexes (sound : c.Sound) {i : MixedIndex} :
    i ∈ c.mixedIndexes ↔ c.get? i.id = some (.mixed i) := by
  rw [mixedIndexes, List.mem_filterMap, show i.id = (IndexDefinition.mixed i).id from rfl,
    ← mem_values sound]
  constructor
  · rintro ⟨d, there, same⟩
    cases d with
    | composite j => cases same
    | mixed j => exact Option.some.inj same ▸ there
  · exact fun there => ⟨_, there, rfl⟩

/-- Every index is found by its name. -/
def Named (c : Catalog) : Prop := ∀ id d, c.get? id = some d → c.idOf? d.name = some id

theorem named_create (named : c.Named) (h : c.create d = .ok c') : c'.Named := by
  obtain ⟨-, -, free, rfl⟩ := create_ok h
  intro id d' there
  rw [get?, KeyMap.get?_insert] at there
  split at there
  · next same =>
    rw [← Option.some.inj there, same]
    simp [idOf?]
  · have known := named id d' there
    have apart : d.name ≠ d'.name := fun same => by
      rw [same, known] at free
      cases free
    simpa [idOf?, apart] using known

theorem named_addMixedField {f : MixedField} (named : c.Named) (h : c.addMixedField id f = .ok c') :
    c'.Named := by
  obtain ⟨i, known, rfl⟩ := addMixedField_ok h
  intro id' d there
  rw [get?, KeyMap.get?_insert] at there
  split at there
  · next same =>
    rw [← Option.some.inj there, same]
    exact named id (.mixed i) known
  · exact named id' d there

theorem idOf?_unnamed (byId : KeyMap IndexDefinition) (byKey : KeyMap (List SchemaId))
    (byName : List (String × SchemaId)) (name other : String) :
    idOf? ⟨byId, byName.filter (·.1 ≠ name), byKey⟩ other =
      if other = name then none else idOf? ⟨byId, byName, byKey⟩ other := by
  rw [idOf?, idOf?, List.find?_filter]
  by_cases same : other = name
  · rw [if_pos same, Option.map_eq_none_iff, List.find?_eq_none]
    simp [same]
  · rw [if_neg same]
    congr 2
    funext e
    by_cases here : e.1 = other
    · simp [here, same]
    · simp [here]

theorem named_drop {name : String} (named : c.Named) (h : c.drop name = .ok (d, c')) : c'.Named := by
  obtain ⟨id, gone, -, rfl⟩ := drop_ok h
  intro id' d' there
  rw [get?, KeyMap.get?_erase] at there
  split at there
  · cases there
  · next other =>
    have known := named id' d' there
    rw [idOf?_unnamed, if_neg]
    · exact known
    · rintro same
      rw [same, gone] at known
      exact other (Option.some.inj known).symm

theorem Reachable.named (h : c.Reachable) : c.Named := by
  induction h with
  | empty => exact nofun
  | create _ accepted ih => exact named_create ih accepted
  | addMixedField _ accepted ih => exact named_addMixedField ih accepted
  | drop _ accepted ih => exact named_drop ih accepted

/-- No two indexes have one name. -/
theorem Reachable.eq_of_name {id' : SchemaId} {d' : IndexDefinition} (h : c.Reachable)
    (one : c.get? id = some d) (other : c.get? id' = some d') (same : d.name = d'.name) : id = id' := by
  have known := h.named id d one
  rw [same, h.named id' d' other] at known
  exact (Option.some.inj known).symm

end GraphStore.Catalog
