import GraphStore.Index.Planning
import GraphStore.Proofs.Attempt
import GraphStore.Proofs.Index.Catalog
import GraphStore.Proofs.Index.Matching

/-!
What a plan that succeeds holds for one composite index. Every step of planning is described by the
composite updates that it adds; steps that go to search backends add none.
-/
namespace GraphStore

/-- Of composite updates only equal ones absorb each other; a mixed one never meets them. -/
theorem IndexUpdate.absorb?_some {held arriving merged : IndexUpdate}
    (h : held.absorb? arriving = some merged) :
    merged = held ∧ arriving = held ∨
      (∃ a, merged = .mixed a) ∧ (∃ b, held = .mixed b) ∧ ∃ d, arriving = .mixed d := by
  cases held <;> cases arriving <;> simp only [absorb?] at h
  · split at h
    · next same => exact .inl ⟨(Option.some.inj h).symm, by rw [same]⟩
    · cases h
  · cases h
  · cases h
  · split at h
    · exact .inr ⟨⟨_, (Option.some.inj h).symm⟩, ⟨_, rfl⟩, _, rfl⟩
    · cases h

namespace UpdateSet

theorem mem_absorbInto {arriving : IndexUpdate} {held merged : List IndexUpdate}
    (h : absorbInto arriving held = some merged) (u : CompositeUpdate) :
    (.composite u ∈ merged ↔ .composite u ∈ held) ∧ (arriving = .composite u → .composite u ∈ held) := by
  induction held generalizing merged with
  | nil => cases h
  | cons first rest ih =>
    rw [absorbInto] at h
    split at h
    · next one absorbed =>
      obtain rfl := Option.some.inj h
      obtain ⟨rfl, rfl⟩ | ⟨⟨a, rfl⟩, ⟨b, rfl⟩, d, rfl⟩ := IndexUpdate.absorb?_some absorbed
      · exact ⟨Iff.rfl, fun same => same ▸ List.mem_cons_self⟩
      · simp
    · rw [Option.map_eq_some_iff] at h
      obtain ⟨rest', later, rfl⟩ := h
      obtain ⟨kept, there⟩ := ih later
      rw [List.mem_cons, List.mem_cons, kept]
      exact ⟨Iff.rfl, fun same => .inr (there same)⟩

theorem mem_insert (s : UpdateSet) (arriving : IndexUpdate) (u : CompositeUpdate) :
    .composite u ∈ (s.insert arriving).2.updates ↔
      .composite u ∈ s.updates ∨ arriving = .composite u := by
  rw [insert]
  split
  · next merged absorbed =>
    obtain ⟨kept, there⟩ := mem_absorbInto absorbed u
    rw [kept]
    exact ⟨.inl, fun either => either.elim id there⟩
  · simp [eq_comm]

theorem mem_insertAll (s : UpdateSet) (us : List IndexUpdate) (u : CompositeUpdate) :
    .composite u ∈ (s.insertAll us).updates ↔ .composite u ∈ s.updates ∨ .composite u ∈ us := by
  induction us generalizing s with
  | nil => simp [insertAll]
  | cons arriving rest ih =>
    rw [insertAll, List.foldl_cons, ← insertAll, ih, mem_insert, List.mem_cons, or_assoc,
      eq_comm (a := arriving)]

theorem mem_composites (s : UpdateSet) (u : CompositeUpdate) :
    u ∈ s.composites ↔ .composite u ∈ s.updates := by
  rw [composites, List.mem_filterMap]
  constructor
  · rintro ⟨x, there, same⟩
    cases x with
    | composite y =>
      obtain rfl := Option.some.inj same
      exact there
    | mixed y => cases same
  · exact fun there => ⟨_, there, rfl⟩

end UpdateSet

namespace Planning

variable {α β : Type}

/-- If the step succeeds, it adds just these composite updates to the plan. -/
def Emits (step : Planning α) (added : CompositeUpdate → Prop) : Prop :=
  ∀ s a s', step s = (.ok a, s') →
    ∀ u, .composite u ∈ s'.planned ↔ .composite u ∈ s.planned ∨ added u

/-- The step leaves composite updates as they are. -/
abbrev Quiet (step : Planning α) : Prop := Emits step fun _ => False

theorem Quiet.of_planned {step : Planning α} (h : ∀ s, (step s).2.planned = s.planned) : Quiet step := by
  intro s a s' run u
  have same : s'.planned = s.planned := by
    rw [← h s, run]
  simp [same]

theorem quiet_pure (a : α) : Quiet (pure a) := .of_planned fun _ => rfl

theorem quiet_get : Quiet Attempt.get := .of_planned fun _ => rfl

theorem quiet_ofFault (e : Except Fault α) : Quiet (ofFault e) := .of_planned fun _ => rfl

theorem quiet_inSpace (step : Attempt FieldSpace IndexFault α) : Quiet (inSpace step) :=
  .of_planned fun _ => rfl

theorem quiet_mixed (u : MixedUpdate) : Quiet (emit (.mixed u)) := by
  intro s a s' run x
  obtain ⟨-, rfl⟩ := Prod.mk.inj run
  simp

theorem Emits.bind {step : Planning α} {next : α → Planning β} {P Q : CompositeUpdate → Prop}
    (first : Emits step P) (second : ∀ a, Emits (next a) Q) :
    Emits (step >>= next) fun u => P u ∨ Q u := by
  intro s b s' run u
  obtain ⟨a, middle, one, two⟩ := Attempt.bind_run_ok_iff.1 run
  rw [second a _ _ _ two, first _ _ _ one, or_assoc]

theorem Quiet.bind {step : Planning α} {next : α → Planning β} {Q : CompositeUpdate → Prop}
    (first : Quiet step) (second : ∀ a, Emits (next a) Q) : Emits (step >>= next) Q := by
  have both := Emits.bind first second
  simpa using both

theorem Emits.bind_quiet {step : Planning α} {next : α → Planning β} {P : CompositeUpdate → Prop}
    (first : Emits step P) (second : ∀ a, Quiet (next a)) : Emits (step >>= next) P := by
  have both := Emits.bind first second
  simpa using both

theorem emits_each {step : α → Planning Unit} {P : α → CompositeUpdate → Prop}
    (h : ∀ a, Emits (step a) (P a)) (l : List α) :
    Emits (Attempt.each step l) fun u => ∃ a ∈ l, P a u := by
  induction l with
  | nil =>
    have nothing : Quiet (Attempt.each step []) := quiet_pure ()
    simpa using nothing
  | cons a rest ih =>
    have both : Emits (Attempt.each step (a :: rest)) _ := (h a).bind fun _ => ih
    simpa using both

theorem ofFault_ok {e : Except Fault α} {s s' : PlanState} {a : α}
    (h : ofFault e s = (.ok a, s')) : e = .ok a ∧ s' = s := by
  cases e with
  | error fault => cases h
  | ok b =>
    obtain ⟨same, rfl⟩ := Prod.mk.inj h
    exact ⟨congrArg _ (Except.ok.inj same), rfl⟩

/-- An update that was made goes into the plan. -/
theorem emits_made (made : Except Fault IndexUpdate) :
    Emits (do emit (← ofFault made)) fun u => made = .ok (.composite u) := by
  intro s a s' run u
  obtain ⟨x, middle, one, two⟩ := Attempt.bind_run_ok_iff.1 run
  obtain ⟨rfl, rfl⟩ := ofFault_ok one
  obtain ⟨-, rfl⟩ := Prod.mk.inj two
  simp [eq_comm]

end Planning

namespace Planner

open Planning

variable {c : Planner} {u : UpdateContext} {v : Vertex} {p : VertexProperty}

theorem emits_planComposite (i : CompositeIndex) (found : List Match) :
    Emits (c.planComposite u i found) fun x =>
      ∃ m ∈ found, c.compositeUpdate u i m = .ok (.composite x) :=
  emits_each (fun m => emits_made (c.compositeUpdate u i m)) found

theorem quiet_planField (i : MixedIndex) (key : SchemaId) (value : Value) (metadata : Properties) :
    Quiet (c.planField u i key value metadata) := by
  rw [planField]
  split
  · exact quiet_pure ()
  · split
    · refine (quiet_inSpace _).bind fun name => ?_
      exact (quiet_ofFault _).bind fun type => quiet_mixed _
    · exact quiet_pure ()

theorem emits_planVertexIndex (d : IndexDefinition) :
    Emits (c.planVertexIndex u v p d) fun x => ∃ i, d = .composite i ∧ i.status.isMaintained = true ∧
      ∃ m ∈ Match.ofVertex v i.fields (some p.matched), c.compositeUpdate u i m = .ok (.composite x) := by
  cases d with
  | mixed i =>
    rw [planVertexIndex]
    simpa using quiet_planField i p.key p.value p.metadata
  | composite i =>
    rw [planVertexIndex]
    split
    · next maintained =>
      show Emits (c.planComposite u i (Match.ofVertex v i.fields (some p.matched))) _
      simpa [maintained] using emits_planComposite i _
    · next disabled => simpa [disabled] using quiet_pure ()

theorem quiet_planDefaultIndex (registrar : Registrar) (f : DefaultField) (type : RelationType)
    (i : MixedIndex) : Quiet (c.planDefaultIndex u registrar f type p i) := by
  rw [planDefaultIndex]
  cases u.kind with
  | add => exact (quiet_inSpace _).bind fun _ => quiet_mixed _
  | delete => exact (quiet_pure ()).bind fun _ => quiet_mixed _

theorem quiet_planDefault (f : DefaultField) : Quiet (c.planDefault u v p f) := by
  rw [planDefault]
  split
  · exact quiet_pure ()
  · next registrar _ =>
    refine (quiet_ofFault _).bind fun type => ?_
    have targets := emits_each (fun i => quiet_planDefaultIndex (c := c) (u := u) (p := p) registrar f type i)
      (c.defaultTargets f.key v.label)
    simpa using targets

/-- What the updates of a vertex property have in common. -/
def vertexContext (c : Planner) (v : Vertex) (kind : UpdateKind) : UpdateContext :=
  ⟨.vertex v.id, kind, (v.label.bind c.types.label?).bind (·.ttl)⟩

theorem emits_planVertexProperty (kind : UpdateKind) :
    Emits (c.planVertexProperty v p kind) fun x =>
      ∃ d ∈ c.applying p.key .vertex v.label, ∃ i, d = .composite i ∧ i.status.isMaintained = true ∧
        ∃ m ∈ Match.ofVertex v i.fields (some p.matched),
          c.compositeUpdate (c.vertexContext v kind) i m = .ok (.composite x) := by
  have indexes := emits_each (fun d => emits_planVertexIndex (c := c) (u := c.vertexContext v kind)
    (v := v) (p := p) d) (c.applying p.key .vertex v.label)
  refine indexes.bind_quiet fun _ => quiet_get.bind fun s => ?_
  split
  · exact quiet_pure ()
  · exact quiet_planDefault _

theorem compositeUpdate_ok {i : CompositeIndex} {m : Match} {update : IndexUpdate}
    (h : c.compositeUpdate u i m = .ok update) :
    ∃ x, update = .composite x ∧ x.index = i.id ∧ x.kind = u.kind ∧
      c.keys.ofMatch c.types i m = .ok x.key ∧ IndexEntry.build i m u.element = .ok x.entry ∧
      x.element = u.element ∧
      ∃ ttls, keyTtls c.types (m.map (·.key)) = .ok ttls ∧ x.ttl = ttlFor u.kind (u.ttl :: ttls) := by
  obtain ⟨key, key_eq, h⟩ := bind_ok_iff.1 h
  obtain ⟨entry, entry_eq, h⟩ := bind_ok_iff.1 h
  obtain ⟨ttls, ttls_eq, h⟩ := bind_ok_iff.1 h
  exact ⟨_, (pure_ok_iff.1 h).symm, rfl, rfl, key_eq, entry_eq, rfl, ttls, ttls_eq, rfl⟩

theorem plan_ok {mutation : Mutation} {space space' : FieldSpace} {set : UpdateSet}
    (h : c.plan mutation space = (.ok set, space')) :
    ∃ after, c.planMutation mutation ⟨space, []⟩ = (.ok (), after) ∧
      set = UpdateSet.empty.insertAll after.planned ∧ space' = after.space := by
  simp only [plan, planInto] at h
  cases run : c.planMutation mutation ⟨space, []⟩ with
  | mk result after =>
    rw [run] at h
    cases result with
    | error fault => cases h
    | ok a =>
      obtain ⟨same, space_eq⟩ := Prod.mk.inj h
      exact ⟨after, rfl, (Except.ok.inj same).symm, space_eq.symm⟩

variable {i : CompositeIndex} {kind : UpdateKind} {space space' : FieldSpace} {set : UpdateSet}

theorem mem_applying (sound : c.catalog.Sound) (known : c.catalog.get? i.id = some (.composite i))
    (applies : i.appliesTo .vertex v.label = true) (key : SchemaId) :
    .composite i ∈ c.applying key .vertex v.label ↔ key ∈ i.fields := by
  have covers : (IndexDefinition.composite i).appliesTo .vertex v.label = true := applies
  rw [applying, List.mem_filter, Catalog.mem_indexesForKey sound]
  simp only [covers, and_true]
  exact ⟨And.right, fun inside => ⟨known, inside⟩⟩

/-- What a plan holds comes from a kept up index that covers the vertex, and there from a match that the
property takes part in. -/
theorem origin_of_mem_plan (sound : c.catalog.Sound)
    (planned : c.plan (.vertexProperty v p kind) space = (.ok set, space')) {x : CompositeUpdate}
    (there : x ∈ set.composites) :
    ∃ i, c.catalog.get? i.id = some (.composite i) ∧ i.status.isMaintained = true ∧
      i.appliesTo .vertex v.label = true ∧ p.key ∈ i.fields ∧
      ∃ m ∈ Match.ofVertex v i.fields (some p.matched),
        c.compositeUpdate (c.vertexContext v kind) i m = .ok (.composite x) := by
  obtain ⟨after, run, rfl, -⟩ := plan_ok planned
  rw [UpdateSet.mem_composites, UpdateSet.mem_insertAll,
    emits_planVertexProperty kind _ _ _ run x] at there
  obtain absurd | absurd | ⟨d, listed, i, rfl, maintained, m, found, made⟩ := there
  · cases absurd
  · cases absurd
  rw [applying, List.mem_filter, Catalog.mem_indexesForKey sound] at listed
  exact ⟨i, listed.1.1, maintained, listed.2, listed.1.2, m, found, made⟩

/-- What a plan holds for an index comes from the matches that the property takes part in. -/
theorem match_of_mem_plan (sound : c.catalog.Sound) (known : c.catalog.get? i.id = some (.composite i))
    (planned : c.plan (.vertexProperty v p kind) space = (.ok set, space')) {x : CompositeUpdate}
    (there : x ∈ set.composites) (own : x.index = i.id) :
    x.kind = kind ∧ p.key ∈ i.fields ∧ ∃ m ∈ Match.ofVertex v i.fields (some p.matched),
      c.keys.ofMatch c.types i m = .ok x.key ∧ IndexEntry.build i m (.vertex v.id) = .ok x.entry := by
  obtain ⟨j, stands, -, -, inside, m, found, made⟩ := origin_of_mem_plan sound planned there
  obtain ⟨y, same, index, kind_eq, key, entry, -⟩ := compositeUpdate_ok made
  obtain rfl := IndexUpdate.composite.inj same
  rw [index.symm.trans own, known] at stands
  obtain rfl := IndexDefinition.composite.inj (Option.some.inj stands)
  exact ⟨kind_eq, inside, m, found, key, entry⟩

/-- Every match that the property takes part in has an update, and it is in the plan. -/
theorem planned_of_match (sound : c.catalog.Sound)
    (known : c.catalog.get? i.id = some (.composite i)) (maintained : i.status.isMaintained = true)
    (applies : i.appliesTo .vertex v.label = true)
    (planned : c.plan (.vertexProperty v p kind) space = (.ok set, space'))
    (inside : p.key ∈ i.fields) {m : Match} (found : m ∈ Match.ofVertex v i.fields (some p.matched)) :
    ∃ x ∈ set.composites, c.compositeUpdate (c.vertexContext v kind) i m = .ok (.composite x) := by
  obtain ⟨after, run, rfl, -⟩ := plan_ok planned
  have listed := (mem_applying sound known applies p.key).2 inside
  obtain ⟨_, middle, indexes, -⟩ := Attempt.bind_run_ok_iff.1 run
  obtain ⟨s, s', one⟩ := Attempt.each_ok indexes _ listed
  rw [planVertexIndex, if_pos maintained] at one
  obtain ⟨s, s', made⟩ := Attempt.each_ok one m found
  obtain ⟨update, _, made, -⟩ := Attempt.bind_run_ok_iff.1 made
  have update_eq : c.compositeUpdate (c.vertexContext v kind) i m = .ok update := (ofFault_ok made).1
  obtain ⟨x, rfl, -⟩ := compositeUpdate_ok update_eq
  refine ⟨x, ?_, update_eq⟩
  rw [UpdateSet.mem_composites, UpdateSet.mem_insertAll, emits_planVertexProperty kind _ _ _ run x]
  exact .inr (.inr ⟨_, listed, i, rfl, maintained, m, found, update_eq⟩)

/-- Every match that the property takes part in is in the plan. -/
theorem mem_plan_of_match (sound : c.catalog.Sound)
    (known : c.catalog.get? i.id = some (.composite i)) (maintained : i.status.isMaintained = true)
    (applies : i.appliesTo .vertex v.label = true)
    (planned : c.plan (.vertexProperty v p kind) space = (.ok set, space'))
    (inside : p.key ∈ i.fields) {m : Match} (found : m ∈ Match.ofVertex v i.fields (some p.matched)) :
    ∃ x ∈ set.composites, x.index = i.id ∧ x.kind = kind ∧
      c.keys.ofMatch c.types i m = .ok x.key ∧ IndexEntry.build i m (.vertex v.id) = .ok x.entry := by
  obtain ⟨x, there, made⟩ := planned_of_match sound known maintained applies planned inside found
  obtain ⟨y, same, index, kind_eq, key, entry, -⟩ := compositeUpdate_ok made
  obtain rfl := IndexUpdate.composite.inj same
  exact ⟨x, there, index, kind_eq, key, entry⟩

end Planner

end GraphStore
