import GraphStore.Proofs.Index.CatalogUse
import GraphStore.Proofs.Index.FieldWrites
import Mathlib.Data.List.Find

/-!
Fields that lie dormant: they are disabled, and their keys have no default fields. In a catalog without the
dormant fields of an index all else stands as before. The index itself has the names of its other keys as before,
but where a dormant field cannot be named, no name is found at all.
-/
namespace GraphStore

/-- The field is disabled, and its key has no default field. -/
def MixedField.isDormant (d : DefaultFields) (f : MixedField) : Bool :=
  f.status = .disabled && (d.field? f.key).isNone

namespace MixedIndex

/-- The index without its dormant fields. -/
def pruned (d : DefaultFields) (i : MixedIndex) : MixedIndex :=
  { i with fields := i.fields.filter fun f => !f.isDormant d }

/-- The keys of the dormant fields. -/
def dormant (d : DefaultFields) (i : MixedIndex) : List SchemaId := (i.fields.filter (·.isDormant d)).map (·.key)

/-- The fault of looking for names when the schema does not know a key that a dormant field is to be named after. -/
def DormantFault (types : Types) (d : DefaultFields) (i : MixedIndex) (fault : IndexFault) : Prop :=
  i.source = .managed ∧ ∃ f ∈ i.fields, f.isDormant d = true ∧ f.mappedName = none ∧ types.type? f.key = none ∧
    fault = .core (.unknownType f.key)

variable {d : DefaultFields} {i : MixedIndex} {f : MixedField} {key : SchemaId}

theorem mem_dormant : key ∈ i.dormant d ↔ ∃ f ∈ i.fields, f.isDormant d = true ∧ f.key = key := by
  simp [dormant, and_assoc]

/-- A default field keeps its key awake. -/
theorem not_mem_dormant {default : DefaultField} (field : d.field? key = some default) : key ∉ i.dormant d := by
  intro asleep
  obtain ⟨f, -, dormant, rfl⟩ := mem_dormant.1 asleep
  simp [MixedField.isDormant, field] at dormant

theorem field?_pruned (awake : key ∉ i.dormant d) : (i.pruned d).field? key = i.field? key := by
  have kept : ∀ f ∈ i.fields, f.key = key → f.isDormant d = false := by
    intro f there here
    by_contra dormant
    exact awake (mem_dormant.2 ⟨f, there, by simpa using dormant, here⟩)
  rw [field?, pruned, List.find?_filter, field?]
  refine List.find?_congr fun f there => ?_
  by_cases here : f.key = key
  · simp [here, kept f there here]
  · simp [here]

section Distinct

variable (distinct : (i.fields.map (·.key)).Nodup)

include distinct

theorem isDormant_of_mem (there : f ∈ i.fields) (asleep : f.key ∈ i.dormant d) : f.isDormant d = true := by
  obtain ⟨g, there', dormant, same⟩ := mem_dormant.1 asleep
  rwa [← List.inj_on_of_nodup_map distinct there' there same]

theorem status_of_dormant (asleep : key ∈ i.dormant d) (field : i.field? key = some f) : f.status = .disabled := by
  have here : f.key = key := by simpa using List.find?_some field
  have dormant := isDormant_of_mem distinct (List.mem_of_find?_eq_some field) (here ▸ asleep)
  simpa using (Bool.and_eq_true_iff.1 dormant).1

theorem mem_keys_pruned :
    key ∈ (i.pruned d).fields.map (·.key) ↔ key ∈ i.fields.map (·.key) ∧ key ∉ i.dormant d := by
  simp only [pruned, List.mem_map, List.mem_filter]
  constructor
  · rintro ⟨f, ⟨there, kept⟩, rfl⟩
    refine ⟨⟨f, there, rfl⟩, fun asleep => ?_⟩
    rw [isDormant_of_mem distinct there asleep] at kept
    cases kept
  · rintro ⟨⟨f, there, rfl⟩, awake⟩
    refine ⟨f, ⟨there, ?_⟩, rfl⟩
    by_contra dormant
    exact awake (mem_dormant.2 ⟨f, there, by simpa using dormant, rfl⟩)

end Distinct

/-- The index without its dormant fields, if it is the one of the id. -/
def standIn (d : DefaultFields) (id : SchemaId) (i : MixedIndex) : MixedIndex := if i.id = id then i.pruned d else i

/-- In all that concerns a key the indexes are alike, faults of a kind apart that the first may have. -/
structure SameFor (types : Types) (spoils : IndexFault → Prop) (key : SchemaId) (i j : MixedIndex) : Prop where
  rest : j = { i with fields := j.fields }
  field : j.field? key = i.field? key
  names : ∀ e, (∃ fault, FieldNames.ofIndex types e i = .error fault ∧ spoils (.core fault)) ∨
    (FieldNames.ofIndex types e j).map (·.get? key) = (FieldNames.ofIndex types e i).map (·.get? key)

end MixedIndex

namespace FieldNames

variable {types : Types} {key : SchemaId} {source : MappingSource}

theorem declaredName_error {f : MixedField} {fault : Fault} (failed : declaredName types source f = .error fault) :
    source = .managed ∧ f.mappedName = none ∧ types.type? f.key = none ∧ fault = .unknownType f.key := by
  cases mapped : f.mappedName with
  | some name => simp [declaredName, mapped] at failed
  | none =>
    cases source with
    | external => simp [declaredName, mapped] at failed
    | managed =>
      cases found : types.type? f.key with
      | some t => simp [declaredName, mapped, Types.existing, found, Except.map] at failed
      | none =>
        simp only [declaredName, mapped, Types.existing, found, Except.map, Except.error.injEq] at failed
        exact ⟨rfl, rfl, rfl, failed.symm⟩

/-- Fields of other keys make no difference to the name of a key, unless one of them cannot be named. -/
theorem foldlM_filter (types : Types) (source : MappingSource) {keep : MixedField → Bool} {fields : List MixedField}
    (others : ∀ f ∈ fields, keep f = false → f.key ≠ key)
    {m m' : KeyMap String} (same : m'.get? key = m.get? key) :
    (∃ f ∈ fields, keep f = false ∧ ∃ fault, declaredName types source f = .error fault ∧
      fields.foldlM (addDeclared types source) m = .error fault) ∨
    ((fields.filter keep).foldlM (addDeclared types source) m').map (·.get? key) =
      (fields.foldlM (addDeclared types source) m).map (·.get? key) := by
  induction fields generalizing m m' with
  | nil => exact .inr (congrArg Except.ok same)
  | cons f rest ih =>
    obtain ⟨first, others⟩ := List.forall_mem_cons.1 others
    rw [List.foldlM_cons]
    cases named : declaredName types source f with
    | error fault =>
      have stopped : addDeclared types source m f = .error fault := by simp only [addDeclared, named]
      rw [stopped]
      -- a field that is kept stops both folds, a dropped one only the fold over all fields
      cases kept : keep f with
      | false => exact .inl ⟨f, List.mem_cons_self, kept, fault, named, rfl⟩
      | true =>
        rw [List.filter_cons_of_pos kept, List.foldlM_cons]
        simp only [addDeclared, named]
        exact .inr rfl
    | ok name =>
      have added (n : KeyMap String) : addDeclared types source n f = .ok (name.elim n (n.insert f.key)) := by
        cases name <;> simp only [addDeclared, named, Option.elim]
      have held (n : KeyMap String) :
          (name.elim n (n.insert f.key)).get? key = if key = f.key then name.or (n.get? key) else n.get? key := by
        cases name <;> simp [KeyMap.get?_insert]
      have later {n n' : KeyMap String} (same : n'.get? key = n.get? key) :
          (∃ g ∈ f :: rest, keep g = false ∧ ∃ fault, declaredName types source g = .error fault ∧
            rest.foldlM (addDeclared types source) n = .error fault) ∨
          ((rest.filter keep).foldlM (addDeclared types source) n').map (·.get? key) =
            (rest.foldlM (addDeclared types source) n).map (·.get? key) := by
        apply (ih others same).imp_left
        rintro ⟨g, there, dropped⟩
        exact ⟨g, List.mem_cons_of_mem f there, dropped⟩
      rw [added]
      cases kept : keep f with
      | true =>
        rw [List.filter_cons_of_pos kept, List.foldlM_cons, added]
        exact later (by rw [held, held, same])
      | false =>
        rw [List.filter_cons_of_neg (by simp [kept])]
        exact later (by rw [held, if_neg (Ne.symm (first kept)), same])

/-- The name of a key is what the declared fields say, or else what the default fields do. -/
theorem map_get?_ofIndex (e : DefaultFields) (i : MixedIndex) (key : SchemaId) :
    (ofIndex types e i).map (·.get? key) =
      ((i.fields.foldlM (addDeclared types i.source) KeyMap.empty).map (·.get? key)).map fun declared =>
        declared.or (((e.registeredFields i.store i.name).find? (·.key = key)).map (·.name)) := by
  rw [ofIndex]
  cases i.fields.foldlM (addDeclared types i.source) KeyMap.empty with
  | error fault => rfl
  | ok declared => exact congrArg Except.ok (get?_foldl_addDefault ..)

end FieldNames

namespace MixedIndex

variable {types : Types} {spoils : IndexFault → Prop} {d : DefaultFields} {i : MixedIndex} {key : SchemaId}

theorem SameFor.refl (types : Types) (spoils : IndexFault → Prop) (key : SchemaId) (i : MixedIndex) :
    SameFor types spoils key i i := ⟨rfl, rfl, fun _ => .inr rfl⟩

/-- Without its dormant fields an index is the same for its other keys, whatever it has learned. -/
theorem sameFor_pruned (types : Types) (awake : key ∉ i.dormant d) :
    SameFor types (i.DormantFault types d) key i (i.pruned d) := by
  refine ⟨rfl, field?_pruned awake, fun e => ?_⟩
  have others : ∀ f ∈ i.fields, (!f.isDormant d) = false → f.key ≠ key := by
    intro f there asleep here
    exact awake (mem_dormant.2 ⟨f, there, by simpa using asleep, here⟩)
  have start : KeyMap.empty.get? key = (KeyMap.empty : KeyMap String).get? key := rfl
  rcases FieldNames.foldlM_filter types i.source others start with
    ⟨f, there, asleep, fault, failed, stopped⟩ | same
  · obtain ⟨managed, unnamed, unknown, rfl⟩ := FieldNames.declaredName_error failed
    have failed : FieldNames.ofIndex types e i = .error (.unknownType f.key) := by
      rw [FieldNames.ofIndex, stopped]
      rfl
    exact .inl ⟨_, failed, managed, f, there, by simpa using asleep, unnamed, unknown, rfl⟩
  · rw [FieldNames.map_get?_ofIndex, FieldNames.map_get?_ofIndex]
    exact .inr (congrArg (Except.map _) same)

section

variable {j : MixedIndex} (same : SameFor types spoils key i j)

include same

theorem SameFor.id_eq : j.id = i.id := by rw [same.rest]

theorem SameFor.store_eq : j.store = i.store := by rw [same.rest]

theorem SameFor.name_eq : j.name = i.name := by rw [same.rest]

theorem SameFor.source_eq : j.source = i.source := by rw [same.rest]

end

end MixedIndex

/-- The definition without dormant fields, if it is the one of the id. -/
def IndexDefinition.standIn (d : DefaultFields) (id : SchemaId) : IndexDefinition → IndexDefinition
  | .composite i => .composite i
  | .mixed i => .mixed (i.standIn d id)

/-- What stands for an index over a key once the dormant fields are gone, if the key still leads to it. -/
def IndexDefinition.standIn? (d : DefaultFields) (m : MixedIndex) (key : SchemaId) (e : IndexDefinition) :
    Option IndexDefinition :=
  if e.id = m.id ∧ key ∈ m.dormant d then none else some (e.standIn d m.id)

theorem MixedIndex.standIn_id (d : DefaultFields) (id : SchemaId) (i : MixedIndex) : (i.standIn d id).id = i.id := by
  rw [standIn]
  split <;> rfl

namespace IndexDefinition

variable {d : DefaultFields} {id : SchemaId} {e : IndexDefinition}

theorem standIn_id (d : DefaultFields) (id : SchemaId) (e : IndexDefinition) : (e.standIn d id).id = e.id := by
  cases e with
  | composite i => rfl
  | mixed i => exact MixedIndex.standIn_id d id i

theorem standIn_of_ne (other : e.id ≠ id) : e.standIn d id = e := by
  cases e with
  | composite i => rfl
  | mixed i => exact congrArg mixed (if_neg other)

theorem standIn_appliesTo (d : DefaultFields) (id : SchemaId) (e : IndexDefinition) (category : ElementCategory)
    (label : Option SchemaId) : (e.standIn d id).appliesTo category label = e.appliesTo category label := by
  cases e with
  | composite i => rfl
  | mixed i =>
    rw [standIn, MixedIndex.standIn]
    split <;> rfl

end IndexDefinition

namespace Catalog

/-- The catalog without the dormant fields of an index. -/
def prune (d : DefaultFields) (m : MixedIndex) (c : Catalog) : Catalog :=
  { c with
    byId := c.byId.insert m.id (.mixed (m.pruned d))
    byKey := (m.dormant d).foldl (fun byKey key => uncover byKey m.id key) c.byKey }

variable {c : Catalog} {d : DefaultFields} {m i : MixedIndex} (reached : c.Reachable) (known : c.IsMixed m)

include reached known

/-- The definitions of the pruned catalog. -/
theorem get?_prune (id : SchemaId) : (c.prune d m).get? id = (c.get? id).map (·.standIn d m.id) := by
  have stands : (c.prune d m).get? id = if id = m.id then some (.mixed (m.pruned d)) else c.get? id :=
    KeyMap.get?_insert ..
  rw [stands]
  split
  · next here =>
    have found : c.get? m.id = some (.mixed m) := known
    rw [here, found]
    simp [IndexDefinition.standIn, MixedIndex.standIn]
  · next other =>
    cases found : c.get? id with
    | none => rfl
    | some e =>
      rw [Option.map_some, IndexDefinition.standIn_of_ne]
      rwa [reached.sound.named id e found]

theorem isMixed_standIn (one : c.IsMixed i) : (c.prune d m).IsMixed (i.standIn d m.id) := by
  have found : c.get? i.id = some (.mixed i) := one
  rw [IsMixed, get?_prune reached known, MixedIndex.standIn_id, found]
  rfl

theorem exists_standIn {j : MixedIndex} (one : (c.prune d m).IsMixed j) :
    ∃ i, c.IsMixed i ∧ j = i.standIn d m.id := by
  rw [IsMixed, get?_prune reached known, Option.map_eq_some_iff] at one
  obtain ⟨e, found, same⟩ := one
  cases e with
  | composite i => cases same
  | mixed i =>
    obtain rfl := IndexDefinition.mixed.inj same
    rw [MixedIndex.standIn_id] at found
    exact ⟨i, found, rfl⟩

theorem apart_prune : FieldTraffic.Apart (c.prune d m).IsMixed := by
  intro j j' one other same
  obtain ⟨i, there, rfl⟩ := exists_standIn reached known one
  obtain ⟨i', there', rfl⟩ := exists_standIn reached known other
  have named (k : MixedIndex) : (k.standIn d m.id).store = k.store ∧ (k.standIn d m.id).name = k.name := by
    rw [MixedIndex.standIn]
    split <;> exact ⟨rfl, rfl⟩
  rw [MixedIndex.standIn_id, MixedIndex.standIn_id, (named i).1, (named i).2, (named i').1, (named i').2] at same
  rw [reached.apart i i' there there' same]

theorem values_prune : (c.prune d m).byId.values = c.byId.values.map (·.standIn d m.id) := by
  have entries : (c.prune d m).byId = c.byId.mapKeyed fun _ e => e.standIn d m.id := by
    apply KeyMap.ext_get?
    intro id
    rw [KeyMap.get?_mapKeyed]
    exact get?_prune reached known id
  rw [entries, KeyMap.values, KeyMap.values, KeyMap.mapKeyed, List.map_map, List.map_map]
  rfl

/-- A key leads to the indexes that it led to, but no longer to the pruned one if its field there was dormant. -/
theorem indexesForKey_prune (key : SchemaId) :
    (c.prune d m).indexesForKey key = (c.indexesForKey key).filterMap (IndexDefinition.standIn? d m key) := by
  have listed (e : IndexDefinition) : e.id ∈ idsOver (c.prune d m).byKey key ↔
      e.id ∈ idsOver c.byKey key ∧ ¬(e.id = m.id ∧ key ∈ m.dormant d) := mem_uncover_all
  -- both sides go through the definitions in one order, so they are compared at each
  have both : (c.byId.values.map (·.standIn d m.id)).filter (fun e => e.id ∈ idsOver (c.prune d m).byKey key) =
      (c.byId.values.filter fun e => e.id ∈ idsOver c.byKey key).filterMap (IndexDefinition.standIn? d m key) := by
    induction c.byId.values with
    | nil => rfl
    | cons e rest ih =>
      rw [List.map_cons, List.filter_cons, List.filter_cons, IndexDefinition.standIn_id, ih]
      simp only [listed, decide_eq_true_eq]
      by_cases there : e.id ∈ idsOver c.byKey key
      · rw [if_pos there, List.filterMap_cons, IndexDefinition.standIn?]
        by_cases gone : e.id = m.id ∧ key ∈ m.dormant d
        · rw [if_neg fun both => both.2 gone, if_pos gone]
        · rw [if_pos ⟨there, gone⟩, if_neg gone]
      · rw [if_neg there, if_neg fun both => there both.1]
  rw [indexesForKey, values_prune reached known]
  exact both

theorem mixedIndexes_prune : (c.prune d m).mixedIndexes = c.mixedIndexes.map (·.standIn d m.id) := by
  rw [mixedIndexes, mixedIndexes, values_prune reached known, List.filterMap_map, List.map_filterMap]
  refine List.filterMap_congr fun e _ => ?_
  cases e <;> rfl

theorem sameFor_standIn (types : Types) {key : SchemaId} (one : c.IsMixed i)
    (awake : i.id = m.id → key ∉ m.dormant d) :
    MixedIndex.SameFor types (m.DormantFault types d) key i (i.standIn d m.id) := by
  rw [MixedIndex.standIn]
  split
  · next here =>
    obtain rfl := reached.apart i m one known (.inl here)
    exact MixedIndex.sameFor_pruned types (awake rfl)
  · exact .refl types _ key i

theorem mem_keys_standIn {e : IndexDefinition} {id key : SchemaId} (found : c.get? id = some e) :
    key ∈ (e.standIn d m.id).keys ↔ key ∈ e.keys ∧ ¬(id = m.id ∧ key ∈ m.dormant d) := by
  obtain rfl := reached.sound.named id e found
  by_cases here : e.id = m.id
  · have same : e = .mixed m := Option.some.inj ((here ▸ found).symm.trans known)
    subst same
    have distinct := (reached.tidy.keyed m.id (.mixed m) known).2
    have keys : key ∈ (m.pruned d).fields.map (·.key) ↔ key ∈ m.fields.map (·.key) ∧ key ∉ m.dormant d :=
      MixedIndex.mem_keys_pruned distinct
    simpa [IndexDefinition.standIn, MixedIndex.standIn, IndexDefinition.id, IndexDefinition.keys] using keys
  · rw [IndexDefinition.standIn_of_ne here]
    simp [here]

/-- The indexes and the keys of the pruned catalog fit together again. -/
theorem sound_prune : (c.prune d m).Sound := by
  have sound := reached.sound
  constructor
  · intro id e there
    rw [get?_prune reached known] at there
    obtain ⟨e', found, rfl⟩ := Option.map_eq_some_iff.1 there
    rw [IndexDefinition.standIn_id]
    exact sound.named id e' found
  · intro id key
    have listed : id ∈ idsOver (c.prune d m).byKey key ↔
        id ∈ idsOver c.byKey key ∧ ¬(id = m.id ∧ key ∈ m.dormant d) := mem_uncover_all
    rw [listed, sound.covered, get?_prune reached known]
    cases found : c.get? id with
    | none => simp
    | some e => simp [mem_keys_standIn reached known found]
  · intro id i there
    rw [get?_prune reached known] at there
    obtain ⟨e, found, same⟩ := Option.map_eq_some_iff.1 there
    cases e with
    | composite j =>
      obtain rfl := IndexDefinition.composite.inj same
      exact sound.distinct id j found
    | mixed j => cases same

end Catalog

end GraphStore
