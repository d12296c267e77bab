import GraphStore.Proofs.Index.FieldAgreement

/-!
One field of the document of a vertex. A plan for a property of the field's key holds one update for the
document, and it goes to the field whose name is settled with the first such plan. So a run of plans is a run
of the field alone, in which values come and go.
-/
namespace GraphStore

namespace Document

variable {d : Document} {u : MixedUpdate} {us : List MixedUpdate}

/-- Updates of other indexes pass. -/
theorem applyAll_filter (d : Document) (us : List MixedUpdate) :
    d.applyAll (us.filter (·.index = d.index)) = d.applyAll us := by
  induction us generalizing d with
  | nil => rfl
  | cons u rest ih =>
    by_cases own : u.index = d.index
    · rw [List.filter_cons_of_pos (by simpa using own)]
      by_cases takes : d.Takes u
      · rw [applyAll_cons_takes takes, applyAll_cons_takes takes, ← ih, apply_index]
      · rw [applyAll_cons_passes takes, applyAll_cons_passes takes, ih]
    · rw [List.filter_cons_of_neg (by simpa using own), ih,
        applyAll_cons_passes fun takes => own takes.1.symm]

end Document

/-- The update is of a document of the index. -/
def IndexUpdate.goesTo (id : SchemaId) (u : IndexUpdate) : Bool := u.mixed?.any (·.index = id)

theorem IndexUpdate.goesTo_of_absorb (id : SchemaId) {held arriving merged : IndexUpdate}
    (h : held.absorb? arriving = some merged) :
    merged.goesTo id = arriving.goesTo id ∧ held.goesTo id = arriving.goesTo id := by
  cases held <;> cases arriving <;> simp only [absorb?, reduceCtorEq] at h
  · split at h
    · obtain rfl := Option.some.inj h
      exact ⟨rfl, rfl⟩
    · cases h
  · split at h
    · next like =>
      obtain rfl := Option.some.inj h
      obtain ⟨-, -, index, -⟩ := MixedUpdate.sameTarget_iff.1 like
      exact ⟨by simp [goesTo, mixed?, index], by simp [goesTo, mixed?, index]⟩
    · cases h

namespace UpdateSet

variable {id : SchemaId} {u : IndexUpdate} {l : List IndexUpdate}

theorem filter_absorbInto_own (own : u.goesTo id = true) : (absorbInto u l).map (·.filter (·.goesTo id)) =
    absorbInto u (l.filter (·.goesTo id)) := by
  induction l with
  | nil => rfl
  | cons first rest ih =>
    rw [absorbInto]
    cases absorbed : first.absorb? u with
    | some merged =>
      obtain ⟨kept, like⟩ := IndexUpdate.goesTo_of_absorb id absorbed
      rw [own] at kept like
      simp [like, kept, absorbInto, absorbed]
    | none =>
      by_cases like : first.goesTo id = true
      · simp [like, absorbInto, absorbed, ← ih, Function.comp_def]
      · simp [like, ← ih, Function.comp_def]

theorem filter_absorbInto_other (other : u.goesTo id = false) {merged : List IndexUpdate}
    (h : absorbInto u l = some merged) : merged.filter (·.goesTo id) = l.filter (·.goesTo id) := by
  induction l generalizing merged with
  | nil => cases h
  | cons first rest ih =>
    rw [absorbInto] at h
    split at h
    · next one absorbed =>
      obtain rfl := Option.some.inj h
      obtain ⟨kept, like⟩ := IndexUpdate.goesTo_of_absorb id absorbed
      simp [kept, like, other]
    · obtain ⟨rest', later, rfl⟩ := Option.map_eq_some_iff.1 h
      rw [List.filter_cons, List.filter_cons, ih later]

/-- The updates of one index make a set of their own. -/
theorem filter_insertAll (id : SchemaId) (s : UpdateSet) (us : List IndexUpdate) :
    (s.insertAll us).updates.filter (·.goesTo id) =
      ((⟨s.updates.filter (·.goesTo id)⟩ : UpdateSet).insertAll (us.filter (·.goesTo id))).updates := by
  induction us generalizing s with
  | nil => rfl
  | cons u rest ih =>
    rw [insertAll, List.foldl_cons, ← insertAll, ih]
    cases own : u.goesTo id with
    | true =>
      have step : (s.insert u).2.updates.filter (·.goesTo id) =
          ((⟨s.updates.filter (·.goesTo id)⟩ : UpdateSet).insert u).2.updates := by
        simp only [insert, ← filter_absorbInto_own own]
        cases absorbInto u s.updates with
        | none => simp [own]
        | some merged => simp
      rw [List.filter_cons_of_pos own, step]
      rfl
    | false =>
      have step : (s.insert u).2.updates.filter (·.goesTo id) = s.updates.filter (·.goesTo id) := by
        rw [insert]
        split
        · next merged absorbed => exact filter_absorbInto_other own absorbed
        · simp [own]
      rw [List.filter_cons_of_neg (by simp [own]), step]

theorem filter_mixedsOf (id : SchemaId) (l : List IndexUpdate) :
    (mixedsOf l).filter (·.index = id) = mixedsOf (l.filter (·.goesTo id)) := by
  induction l with
  | nil => rfl
  | cons u rest ih =>
    cases u with
    | composite u => exact ih
    | mixed u => by_cases own : u.index = id <;> simp [IndexUpdate.goesTo, IndexUpdate.mixed?, own, ih]

theorem map_mixedsOf {l : List IndexUpdate} (mixed : ∀ x ∈ l, x.mixed?.isSome = true) :
    (mixedsOf l).map .mixed = l := by
  induction l with
  | nil => rfl
  | cons x rest ih =>
    obtain ⟨first, others⟩ := List.forall_mem_cons.1 mixed
    cases x with
    | composite x => cases first
    | mixed x => exact congrArg (.mixed x :: ·) (ih others)

/-- The one update of an index is in the set as it came. -/
theorem filter_mixeds {us : List IndexUpdate} {u : MixedUpdate}
    (one : (mixedsOf us).filter (·.index = id) = [u]) :
    (empty.insertAll us).mixeds.filter (·.index = id) = [u] := by
  have mixed : ∀ x ∈ us.filter (·.goesTo id), x.mixed?.isSome = true := by
    intro x there
    have own := (List.mem_filter.1 there).2
    cases x with
    | composite x => cases own
    | mixed x => rfl
  have only : us.filter (·.goesTo id) = [.mixed u] := by
    rw [← map_mixedsOf mixed, ← filter_mixedsOf, one]
    rfl
  show (mixedsOf (empty.insertAll us).updates).filter (·.index = id) = [u]
  rw [filter_mixedsOf, filter_insertAll, only]
  rfl

end UpdateSet

namespace Catalog

variable {c : Catalog}

theorem nodup_values (sound : c.Sound) : c.byId.values.Nodup := (nodup_ids (ascending_values sound)).of_map

end Catalog

/-- Of a list without repetitions only one item contributes. -/
theorem flatMap_eq_of_single {α β : Type} {l : List α} {f : α → List β} {a : α} (nodup : l.Nodup)
    (there : a ∈ l) (others : ∀ b ∈ l, b ≠ a → f b = []) : l.flatMap f = f a := by
  obtain ⟨before, after, rfl⟩ := List.append_of_mem there
  obtain ⟨-, tail, apart⟩ := List.nodup_append.1 nodup
  have nothing (part : List α) (inside : ∀ b ∈ part, b ∈ before ++ a :: after ∧ b ≠ a) :
      part.flatMap f = [] :=
    List.flatMap_eq_nil_iff.2 fun b member => others b (inside b member).1 (inside b member).2
  rw [List.flatMap_append, List.flatMap_cons, nothing before, nothing after, List.nil_append,
    List.append_nil]
  · intro b member
    refine ⟨by simp [member], fun same => ?_⟩
    exact (List.nodup_cons.1 tail).1 (same ▸ member)
  · intro b member
    exact ⟨by simp [member], apart b member a List.mem_cons_self⟩

/-- The index is in the catalog of the planner, keeps up a field of the key, and covers vertices of a
label. -/
structure Planner.KeepsField (c : Planner) (i : MixedIndex) (key : SchemaId) (label : Option SchemaId) :
    Prop where
  reached : c.catalog.Reachable
  known : c.catalog.IsMixed i
  declared : ∃ f, i.field? key = some f ∧ f.status.isMaintained = true
  applies : i.appliesTo .vertex label = true

namespace Planner

variable {c : Planner} {i : MixedIndex} {v : Vertex} {p : VertexProperty} {kind : UpdateKind}
variable {key : SchemaId} {label : Option SchemaId}
variable {base : DefaultFields} {s s' : FieldSpace} {set : UpdateSet}

theorem KeepsField.eq_of_id (keeps : c.KeepsField i key label) {j : MixedIndex} (known : c.catalog.IsMixed j)
    (same : j.id = i.id) : j = i :=
  keeps.reached.apart j i known keeps.known (.inl same)

/-- The index declares the key, so it takes no default field for it. -/
theorem KeepsField.defaultWrites_eq_nil (keeps : c.KeepsField i p.key label) (base : DefaultFields)
    (u : UpdateContext) : (c.defaultWrites base u v p).filter (·.index.id = i.id) = [] := by
  obtain ⟨f, declared, -⟩ := keeps.declared
  rw [List.filter_eq_nil_iff]
  intro w there same
  rw [defaultWrites] at there
  split at there
  · obtain ⟨j, target, rfl⟩ := List.mem_map.1 there
    obtain ⟨listed, covers⟩ := List.mem_filter.1 target
    obtain rfl := keeps.eq_of_id ((Catalog.mem_mixedIndexes keeps.reached.sound).1 listed) (by simpa using same)
    simp [declared] at covers
  · cases there

theorem KeepsField.mem_applying (keeps : c.KeepsField i key label) :
    .mixed i ∈ c.applying key .vertex label := by
  obtain ⟨f, declared, -⟩ := keeps.declared
  have named : f.key = key := by simpa using List.find?_some declared
  exact List.mem_filter.2 ⟨(Catalog.mem_indexesForKey keeps.reached.sound).2
    ⟨keeps.known, List.mem_map.2 ⟨f, List.mem_of_find?_eq_some declared, named⟩⟩, keeps.applies⟩

/-- A property of the key is one value for the index. -/
theorem KeepsField.filter_writes (keeps : c.KeepsField i p.key v.label) (base : DefaultFields)
    (kind : UpdateKind) : (c.writes base (.vertexProperty v p kind)).filter (·.index.id = i.id) =
      [⟨c.vertexContext v kind, i, p.key, p.value, p.metadata⟩] := by
  have distinct : (c.applying p.key .vertex v.label).Nodup :=
    ((Catalog.nodup_values keeps.reached.sound).filter _).filter _
  rw [writes, List.filter_append, keeps.defaultWrites_eq_nil, List.append_nil, List.filter_flatMap,
    flatMap_eq_of_single distinct keeps.mem_applying]
  · obtain ⟨f, declared, maintained⟩ := keeps.declared
    simp [declaredWrites, declared, maintained]
  · intro d there other
    cases d with
    | composite j => rfl
    | mixed j =>
      have known := ((Catalog.mem_indexesForKey keeps.reached.sound).1 (List.mem_filter.1 there).1).1
      have foreign : j.id ≠ i.id := fun same => other (by rw [keeps.eq_of_id known same])
      rw [List.filter_eq_nil_iff]
      intro w member
      rw [declaredWrites] at member
      split at member
      · cases member
      · split at member
        · obtain rfl := List.mem_singleton.1 member
          simpa using foreign
        · cases member

/-- A plan for a property of the key holds one update for the index, under the name that queries find. -/
theorem KeepsField.planned (keeps : c.KeepsField i p.key v.label) (keyed : base.Keyed)
    (settled : s.Settled c.types c.catalog.IsMixed) (more : base.Extends s.defaults)
    (planned : c.plan (.vertexProperty v p kind) s = (.ok set, s')) :
    FieldSpace.Leads c.types c.catalog.IsMixed s s' ∧ ∃ u : MixedUpdate,
      set.mixeds.filter (·.index = i.id) = [u] ∧
      c.Makes ⟨c.vertexContext v kind, i, p.key, p.value, p.metadata⟩ u ∧
      (FieldSpace.resolve c.types i p.key s').1 = .ok u.field := by
  obtain ⟨leads, us, rfl, landed⟩ := plan_lands keeps.reached keyed settled more planned
  refine ⟨leads, ?_⟩
  have own : ∀ w u, c.Lands s'.defaults w u → (w.index.id = i.id ↔ u.index = i.id) := by
    intro w u lands
    obtain ⟨type, -, made⟩ := lands.makes
    rw [← IndexUpdate.mixed.inj made]
  have landed := List.rel_filter (p := fun w : FieldWrite => decide (w.index.id = i.id))
    (q := fun u : MixedUpdate => decide (u.index = i.id)) (fun w u lands => by simpa using own w u lands) landed
  rw [keeps.filter_writes] at landed
  obtain ⟨u, rest, lands, others, only⟩ := List.forall₂_cons_left_iff.1 landed
  obtain rfl := List.forall₂_nil_left_iff.1 others
  refine ⟨u, UpdateSet.filter_mixeds only, lands.makes, ?_⟩
  obtain ⟨f, declared, -⟩ := keeps.declared
  obtain ⟨names, made⟩ := lands.declared (by simp [declared])
  exact ((leads.settled keeps.reached.apart settled).resolve_ok_iff keeps.reached.apart keeps.known).2
    ⟨names, made, lands.named (.inl (by simp [declared])) names made⟩

end Planner

/-- The document of a vertex, kept up by the plans for the properties of a key that come to the vertex and leave
it. A plan looks at no other property, and before each of them the shared fields may be used in any way. -/
inductive Planner.DocumentRun (c : Planner) (i : MixedIndex) (key : SchemaId) (defaults : DefaultFields)
    (allowed : Vertex → UpdateKind → VertexProperty → Prop) (id : VertexId) (label : Option SchemaId) :
    Option UpdateKind → FieldSpace → Vertex → Document → Prop where
  | start : DocumentRun c i key defaults allowed id label none (.new defaults) ⟨id, label, []⟩
      (.new i.id i.store id)
  | add {last : Option UpdateKind} {space space' space'' : FieldSpace} {v : Vertex} {d : Document}
      {set : UpdateSet} (p : VertexProperty) (seen : Vertex) :
      DocumentRun c i key defaults allowed id label last space v d → p.key = key →
      (∀ q ∈ v.properties, q.id ≠ p.id) → allowed v .add p → seen.id = id → seen.label = label →
      FieldCalls c.catalog c.types space space' →
      c.plan (.vertexProperty seen p .add) space' = (.ok set, space'') →
      DocumentRun c i key defaults allowed id label (some .add) space'' (v.add p) (d.applyAll set.mixeds)
  | remove {last : Option UpdateKind} {space space' space'' : FieldSpace} {v : Vertex} {d : Document}
      {set : UpdateSet} (p : VertexProperty) (seen : Vertex) :
      DocumentRun c i key defaults allowed id label last space v d → p ∈ v.properties →
      allowed v .delete p → seen.id = id → seen.label = label →
      FieldCalls c.catalog c.types space space' →
      c.plan (.vertexProperty seen p .delete) space' = (.ok set, space'') →
      DocumentRun c i key defaults allowed id label (some .delete) space'' (v.remove p.id).2
        (d.applyAll set.mixeds)

/-- What a property puts into a field. -/
def AuxiliaryKeys.entry (a : AuxiliaryKeys) (p : VertexProperty) : FieldValue :=
  a.fieldValue p.value p.metadata

/-- A field of a document, as the properties of its key come and go. -/
inductive FieldRun (a : AuxiliaryKeys) (c : Cardinality) (key : SchemaId)
    (allowed : Vertex → UpdateKind → VertexProperty → Prop) (id : VertexId) (label : Option SchemaId) :
    Option UpdateKind → Vertex → Option FieldSlot → Prop where
  | start : FieldRun a c key allowed id label none ⟨id, label, []⟩ none
  | add {last : Option UpdateKind} {v : Vertex} {held : Option FieldSlot} {p : VertexProperty} :
      FieldRun a c key allowed id label last v held → p.key = key → (∀ q ∈ v.properties, q.id ≠ p.id) →
      allowed v .add p → FieldRun a c key allowed id label (some .add) (v.add p)
        (FieldSlot.after .add c (a.entry p) held)
  | remove {last : Option UpdateKind} {v : Vertex} {held : Option FieldSlot} {p : VertexProperty} :
      FieldRun a c key allowed id label last v held → p ∈ v.properties → allowed v .delete p →
      FieldRun a c key allowed id label (some .delete) (v.remove p.id).2
        (FieldSlot.after .delete c (a.entry p) held)

variable {allowed : Vertex → UpdateKind → VertexProperty → Prop} {id : VertexId} {label : Option SchemaId}
variable {last : Option UpdateKind} {v : Vertex} {key : SchemaId}

namespace FieldRun

variable {a : AuxiliaryKeys} {c : Cardinality} {held : Option FieldSlot}

theorem vertex (run : FieldRun a c key allowed id label last v held) :
    v.Distinct ∧ ∀ p ∈ v.properties, p.key = key := by
  induction run with
  | start => exact ⟨List.nodup_nil, List.forall_mem_nil _⟩
  | add _ own fresh _ ih =>
    refine ⟨ih.1.add fresh, fun q there => ?_⟩
    rcases List.mem_append.1 there with old | new
    · exact ih.2 q old
    · exact List.mem_singleton.1 new ▸ own
  | @remove _ _ _ p _ _ _ ih =>
    exact ⟨ih.1.remove p.id, fun q there => ih.2 q (List.mem_of_mem_eraseP there)⟩

theorem propertiesOf (run : FieldRun a c key allowed id label last v held) :
    v.propertiesOf key = v.properties :=
  List.filter_eq_self.2 fun p there => decide_eq_true (run.vertex.2 p there)

end FieldRun

namespace Planner

variable {c : Planner} {i : MixedIndex} {defaults : DefaultFields} {space space' space'' : FieldSpace}
variable {seen : Vertex} {d : Document} {p : VertexProperty} {set : UpdateSet} {kind : UpdateKind}
variable {type : RelationType}

/-- What holds of a document and the shared fields along a run. -/
structure DocumentRun.Follows (c : Planner) (i : MixedIndex) (key : SchemaId) (defaults : DefaultFields)
    (id : VertexId) (last : Option UpdateKind) (space : FieldSpace) (d : Document) (name : String) : Prop where
  settled : space.Settled c.types c.catalog.IsMixed
  extends_ : defaults.Extends space.defaults
  index : d.index = i.id
  document : d.id = id
  resolved : last ≠ none → (FieldSpace.resolve c.types i key space).1 = .ok name
  untouched : last = none → d.fields = []

/-- A plan for a property of the key does to its field what the value does to a field. -/
theorem DocumentRun.Follows.step (keeps : c.KeepsField i key label) (keyed : defaults.Keyed)
    (typed : c.types.type? key = some type) {name : String}
    (follows : Follows c i key defaults id last space d name) (own : p.key = key) (same : seen.id = id)
    (same' : seen.label = label) (calls : FieldCalls c.catalog c.types space space')
    (planned : c.plan (.vertexProperty seen p kind) space' = (.ok set, space'')) :
    ∃ name', Follows c i key defaults id (some kind) space'' (d.applyAll set.mixeds) name' ∧
      (d.applyAll set.mixeds).field? name' =
        FieldSlot.after kind type.cardinality (c.auxiliary.entry p) (d.field? name) := by
  subst own same same'
  have keyed' := follows.extends_.keyed keyed
  have there := calls.leads keeps.reached keyed'
  have settled := there.settled keeps.reached.apart follows.settled
  have more := follows.extends_.trans there.extends
  obtain ⟨on, u, only, ⟨type', typed', made⟩, resolved⟩ := keeps.planned keyed settled more planned
  obtain rfl : type = type' := Option.some.inj (typed.symm.trans (Types.existing_ok typed'))
  obtain ⟨index, element, cardinality, kind_eq, value⟩ : u.index = i.id ∧ u.element = .vertex seen.id ∧
      u.cardinality = type.cardinality ∧ u.kind = kind ∧
      u.value = c.auxiliary.entry p := by
    rw [← IndexUpdate.mixed.inj made]
    exact ⟨rfl, rfl, rfl, rfl, rfl⟩
  have takes : d.Takes u := ⟨follows.index.trans index.symm, by rw [follows.document, element]; rfl⟩
  have applied : d.applyAll set.mixeds = d.apply u := by
    rw [← Document.applyAll_filter, follows.index, only, Document.applyAll_cons_takes takes]
    rfl
  have before : d.field? u.field = d.field? name := by
    cases last with
    | none => simp [Document.field?, follows.untouched rfl]
    | some kind' =>
      -- the name that was found first is found still
      have leads : FieldSpace.Leads c.types c.catalog.IsMixed space space'' := IsTrans.trans _ _ _ there on
      have still := follows.settled.resolve_mono keeps.reached.apart keeps.known keyed' leads
        (follows.resolved (Option.some_ne_none kind'))
      rw [Except.ok.inj (resolved.symm.trans still)]
  refine ⟨u.field, ⟨on.settled keeps.reached.apart settled, more.trans on.extends, ?_, ?_,
    fun _ => resolved, fun none => absurd none (Option.some_ne_none kind)⟩, ?_⟩
  · rw [applied, Document.apply_index, follows.index]
  · rw [applied, Document.apply_id, follows.document]
  · rw [applied, Document.field?_apply, if_pos rfl, cardinality, kind_eq, value, before]

/-- A run of plans is a run of the field that queries find. -/
theorem DocumentRun.fieldRun (keeps : c.KeepsField i key label) (keyed : defaults.Keyed)
    (typed : c.types.type? key = some type)
    (run : c.DocumentRun i key defaults allowed id label last space v d) :
    ∃ name, Follows c i key defaults id last space d name ∧
      FieldRun c.auxiliary type.cardinality key allowed id label last v (d.field? name) := by
  induction run with
  | start => exact ⟨"", ⟨FieldTraffic.sound_new defaults, .refl _, rfl, rfl, nofun, fun _ => rfl⟩, .start⟩
  | add _ _ _ own fresh may same same' calls planned ih =>
    obtain ⟨name, follows, field⟩ := ih
    obtain ⟨name', follows', now⟩ := follows.step keeps keyed typed own same same' calls planned
    exact ⟨name', follows', now ▸ field.add own fresh may⟩
  | remove _ _ _ on may same same' calls planned ih =>
    obtain ⟨name, follows, field⟩ := ih
    obtain ⟨name', follows', now⟩ :=
      follows.step keeps keyed typed (field.vertex.2 _ on) same same' calls planned
    exact ⟨name', follows', now ▸ field.remove on may⟩

end Planner

end GraphStore
