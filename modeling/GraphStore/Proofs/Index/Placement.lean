import GraphStore.Proofs.Index.FieldWrites

/-!
Where the updates of a plan go. A key of a mixed index is called by the name of its declared field, or else by that
of its default field, whether the index has learned of that yet or not. Whatever comes of a plan, each mixed
update that it has come to is for a value that its mutation has for a field, and goes to what the key of the value
is called.
-/
namespace GraphStore

namespace FieldNames

/-- What a key is called in an index, or would be once the index has learned of its default field. -/
def called? (types : Types) (d : DefaultFields) (i : MixedIndex) (key : SchemaId) : Option String :=
  (declared? types i key).or ((d.field? key).map (·.name))

variable {types : Types} {d e : DefaultFields} {i : MixedIndex} {names : FieldNames} {key : SchemaId}
variable {name : String}

theorem called?_of_extends (more : d.Extends e) : called? types e i key = called? types d i key := by
  rw [called?, called?, DefaultFields.field?, more.fields, DefaultFields.field?]

/-- A key that has a name is called by it. -/
theorem called?_of_get? (keyed : d.Keyed) (made : ofIndex types d i = .ok names)
    (found : names.get? key = some name) : called? types d i key = some name := by
  rw [get?_ofIndex keyed made, Option.or_eq_some_iff] at found
  rw [called?, Option.or_eq_some_iff]
  refine found.imp_right (And.imp_right fun learned => ?_)
  obtain ⟨f, kept, rfl⟩ := Option.map_eq_some_iff.1 learned
  rw [(Option.filter_eq_some_iff.1 kept).1]
  rfl

theorem declared?_eq_none (undeclared : i.field? key = none) : declared? types i key = none := by
  rw [declared?, List.findSome?_eq_none_iff]
  intro f there
  have other := List.find?_eq_none.1 undeclared f (List.mem_reverse.1 there)
  exact if_neg (by simpa using other)

end FieldNames

/-- The update is the one for the value, and goes to what the key is called. -/
structure Planner.Places (c : Planner) (d : DefaultFields) (w : FieldWrite) (u : MixedUpdate) : Prop where
  known : c.catalog.IsMixed w.index
  makes : c.Makes w u
  called : FieldNames.called? c.types d w.index w.key = some u.field

/-- A sound cache stays sound, and what comes behind the updates of a plan is placed, where the default fields
are those that were there first. -/
def PlanState.Places (c : Planner) (base : DefaultFields) (ws : List FieldWrite) (s s' : PlanState) : Prop :=
  base.Extends s.space.defaults → s.space.Settled c.types c.catalog.IsMixed →
    s.space.defaults.Extends s'.space.defaults ∧ s'.space.Settled c.types c.catalog.IsMixed ∧
      ∃ us, s'.planned = s.planned ++ us ∧ ∀ u ∈ mixedsOf us, ∃ w ∈ ws, c.Places base w u

section

variable (c : Planner) (base : DefaultFields) (ws : List FieldWrite)

instance : Std.Refl (PlanState.Places c base ws) :=
  ⟨fun _ _ settled => ⟨.refl _, settled, [], (List.append_nil _).symm, by simp [mixedsOf]⟩⟩

instance : IsTrans PlanState (PlanState.Places c base ws) where
  trans _ _ _ first second more settled := by
    obtain ⟨learned, settled', us, planned, placed⟩ := first more settled
    obtain ⟨learned', settled'', vs, planned', placed'⟩ := second (more.trans learned) settled'
    refine ⟨learned.trans learned', settled'', us ++ vs, ?_, fun u there => ?_⟩
    · rw [planned', planned, List.append_assoc]
    · rw [mixedsOf_append] at there
      exact (List.mem_append.1 there).elim (placed u) (placed' u)

end

namespace Planner

open Planning

variable {α β : Type} {c : Planner} {base : DefaultFields} {ws : List FieldWrite} {i : MixedIndex}
variable {u : UpdateContext} {key : SchemaId} {value : Value} {metadata : Properties} {p : VertexProperty}

theorem places_ofFault_bind {found : Except Fault α} {next : α → Planning β}
    (places : ∀ a, found = .ok a → (next a).Moves (PlanState.Places c base ws)) :
    (ofFault found >>= next).Moves (PlanState.Places c base ws) := by
  cases found with
  | ok a => exact places a rfl
  | error fault => exact .of_still fun _ => rfl

theorem places_inSpace (reached : c.catalog.Reachable) {step : Attempt FieldSpace IndexFault α}
    (moves : step.Moves (FieldSpace.Leads c.types c.catalog.IsMixed)) :
    (inSpace step).Moves (PlanState.Places c base ws) := by
  intro s _ settled
  have leads := moves s.space
  exact ⟨leads.extends, leads.settled reached.apart settled, [], (List.append_nil _).symm, by simp [mixedsOf]⟩

/-- What is found in a sound cache serves the next step. -/
theorem places_inSpace_bind (reached : c.catalog.Reachable) {step : Attempt FieldSpace IndexFault α}
    (moves : step.Moves (FieldSpace.Leads c.types c.catalog.IsMixed)) {next : α → Planning β}
    (places : ∀ (s : PlanState) a space, base.Extends s.space.defaults → s.space.Settled c.types c.catalog.IsMixed →
      step s.space = (.ok a, space) →
      PlanState.Places c base ws { s with space := space } (next a { s with space := space }).2) :
    (inSpace step >>= next).Moves (PlanState.Places c base ws) := by
  intro s more settled
  have first : PlanState.Places c base ws s (inSpace step s).2 := places_inSpace reached moves s
  cases run : step s.space with
  | mk result space =>
    have stepped : inSpace step s = (result, { s with space := space }) := by
      simp only [inSpace, Attempt.within, run]
    rw [stepped] at first
    cases result with
    | error fault =>
      rw [Attempt.bind_run_error stepped]
      exact first more settled
    | ok a =>
      rw [Attempt.bind_run_ok stepped]
      exact IsTrans.trans _ _ _ first (places s a space more settled run) more settled

theorem places_emit {s : PlanState} {x : IndexUpdate}
    (placed : base.Extends s.space.defaults → s.space.Settled c.types c.catalog.IsMixed →
      ∀ u ∈ mixedsOf [x], ∃ w ∈ ws, c.Places base w u) : PlanState.Places c base ws s (emit x s).2 :=
  fun more settled => ⟨.refl _, settled, [x], rfl, placed more settled⟩

theorem places_planComposite (i : CompositeIndex) (found : List Match) :
    (c.planComposite u i found).Moves (PlanState.Places c base ws) := by
  refine .each fun m _ => places_ofFault_bind fun x made s => places_emit fun _ _ => ?_
  obtain ⟨y, rfl, -⟩ := compositeUpdate_ok made
  simp [mixedsOf, IndexUpdate.mixed?]

/-- The update for a value, once its key is seen to be called by the name. -/
theorem placed_mixedUpdate {name : String} {type : RelationType} (known : c.catalog.IsMixed i)
    (typed : c.types.existing key = .ok type) (listed : ⟨u, i, key, value, metadata⟩ ∈ ws)
    (called : FieldNames.called? c.types base i key = some name) :
    ∀ x ∈ mixedsOf [c.mixedUpdate u i name type value metadata], ∃ w ∈ ws, c.Places base w x := by
  intro x there
  have here : c.mixedUpdate u i name type value metadata = .mixed x := by
    simpa [mixedsOf, mixedUpdate, IndexUpdate.mixed?, eq_comm] using there
  have field : x.field = name := by
    rw [mixedUpdate] at here
    rw [← IndexUpdate.mixed.inj here]
  exact ⟨_, listed, known, ⟨type, typed, by rw [field]; exact here⟩, by rw [field]; exact called⟩

section Steps

variable (reached : c.catalog.Reachable) (keyed : base.Keyed)

include reached keyed

/-- A declared field is written to under the name that is found for its key. -/
theorem places_planField (known : c.catalog.IsMixed i)
    (listed : ∀ w ∈ declaredWrites u key value metadata (.mixed i), w ∈ ws) :
    (c.planField u i key value metadata).Moves (PlanState.Places c base ws) := by
  rw [planField]
  rw [declaredWrites] at listed
  cases declared : i.field? key with
  | none => exact .pure ()
  | some f =>
    rw [declared] at listed
    simp only at listed ⊢
    split
    · next maintained =>
      rw [if_pos maintained] at listed
      refine places_inSpace_bind reached (FieldSpace.moves_resolve known key) ?_
      intro s name space more settled run
      have result : (FieldSpace.resolve c.types i key s.space).1 = .ok name := congrArg Prod.fst run
      obtain ⟨names, made, found⟩ := (settled.resolve_ok_iff reached.apart known).1 result
      have called := FieldNames.called?_of_get? (more.keyed keyed) made found
      rw [FieldNames.called?_of_extends more] at called
      refine places_ofFault_bind (fun type typed => fun s' => places_emit fun _ _ => ?_) _
      exact placed_mixedUpdate known typed (listed _ (List.mem_singleton.2 rfl)) called
    · exact .pure ()

theorem places_planRelationIndex (r : Relation) {d : IndexDefinition} (known : c.catalog.get? d.id = some d)
    (listed : ∀ w ∈ declaredWrites u key value r.properties d, w ∈ ws) :
    (c.planRelationIndex u r key value d).Moves (PlanState.Places c base ws) := by
  cases d with
  | mixed i => exact places_planField reached keyed known listed
  | composite i =>
    rw [planRelationIndex]
    split
    · exact places_planComposite i _
    · exact .pure ()

theorem places_planVertexIndex (v : Vertex) {d : IndexDefinition} (known : c.catalog.get? d.id = some d)
    (listed : ∀ w ∈ declaredWrites u p.key p.value p.metadata d, w ∈ ws) :
    (c.planVertexIndex u v p d).Moves (PlanState.Places c base ws) := by
  cases d with
  | mixed i => exact places_planField reached keyed known listed
  | composite i =>
    rw [planVertexIndex]
    split
    · exact places_planComposite i _
    · exact .pure ()

theorem places_planRelation (r : Relation) (kind : UpdateKind) :
    (c.planRelation r kind).Moves (PlanState.Places c base (c.relationWrites r kind)) := by
  rw [planRelation]
  refine places_ofFault_bind fun type found => .each fun entry there => .each fun d covering => ?_
  have known := ((Catalog.mem_indexesForKey reached.sound).1 (List.mem_filter.1 covering).1).1
  have ttl : (c.types.type? r.type).bind (·.ttl) = type.ttl := by rw [Types.existing_ok found]; rfl
  refine places_planRelationIndex reached keyed r known fun w listed => ?_
  rw [relationWrites, ttl]
  exact List.mem_flatMap.2 ⟨entry, there, List.mem_flatMap.2 ⟨d, covering, listed⟩⟩

omit keyed in
/-- A default field is written to under its reserved name, as its key is called where the index declares none. -/
theorem places_planDefaultIndex (registrar : Registrar) {f : DefaultField}
    (field : base.field? p.key = some f) {type : RelationType} (typed : c.types.existing p.key = .ok type)
    (known : c.catalog.IsMixed i) (undeclared : i.field? p.key = none)
    (listed : ⟨u, i, p.key, p.value, p.metadata⟩ ∈ ws) :
    (c.planDefaultIndex u registrar f type p i).Moves (PlanState.Places c base ws) := by
  have called : FieldNames.called? c.types base i p.key = some f.name := by
    rw [FieldNames.called?, FieldNames.declared?_eq_none undeclared, field]
    rfl
  have sent (s : PlanState) : PlanState.Places c base ws s
      (emit (c.mixedUpdate u i f.name type p.value p.metadata) s).2 :=
    places_emit fun _ _ => placed_mixedUpdate known typed listed called
  rw [planDefaultIndex]
  cases u.kind with
  | delete => exact sent
  | add =>
    exact places_inSpace_bind reached (FieldSpace.moves_ensureRegistered known f registrar)
      fun s _ space _ _ _ => sent { s with space := space }

theorem places_planDefault {f : DefaultField} (field : base.field? p.key = some f) (v : Vertex)
    (listed : ∀ w ∈ c.defaultWrites base u v p, w ∈ ws) :
    (c.planDefault u v p f).Moves (PlanState.Places c base ws) := by
  rw [planDefault]
  rw [defaultWrites, field] at listed
  cases registered : c.registrar with
  | none => exact .pure ()
  | some registrar =>
    rw [registered] at listed
    refine places_ofFault_bind fun type typed => .each fun i target => ?_
    rw [keyed p.key f field] at typed target
    obtain ⟨covering, covers⟩ := List.mem_filter.1 target
    have undeclared : i.field? p.key = none := by simpa using (Bool.and_eq_true_iff.1 covers).1
    exact places_planDefaultIndex reached registrar field typed
      ((Catalog.mem_mixedIndexes reached.sound).1 covering) undeclared
      (listed _ (List.mem_map.2 ⟨i, target, rfl⟩))

theorem places_planVertexProperty (v : Vertex) (p : VertexProperty) (kind : UpdateKind) :
    (c.planVertexProperty v p kind).Moves
      (PlanState.Places c base (c.writes base (.vertexProperty v p kind))) := by
  have declared : (Attempt.each (c.planVertexIndex (c.vertexContext v kind) v p)
      (c.applying p.key .vertex v.label)).Moves
        (PlanState.Places c base (c.writes base (.vertexProperty v p kind))) := by
    refine .each fun d covering => ?_
    have known := ((Catalog.mem_indexesForKey reached.sound).1 (List.mem_filter.1 covering).1).1
    refine places_planVertexIndex reached keyed v known fun w listed => ?_
    exact List.mem_append_left _ (List.mem_flatMap.2 ⟨d, covering, listed⟩)
  refine declared.bind fun _ s more settled => ?_
  have field : s.space.defaults.field? p.key = base.field? p.key := congrArg (·.get? p.key) more.fields
  rw [Attempt.bind_run_ok (r := Attempt.get) (a := s) rfl, field]
  cases known : base.field? p.key with
  | none =>
    have still : PlanState.Places c base (c.writes base (.vertexProperty v p kind)) s s := Std.Refl.refl s
    exact still more settled
  | some f =>
    exact places_planDefault reached keyed known v (fun w => List.mem_append_right _) s more settled

theorem places_planMutation (mutation : Mutation) :
    (c.planMutation mutation).Moves (PlanState.Places c base (c.writes base mutation)) := by
  cases mutation with
  | relation r kind => exact places_planRelation reached keyed r kind
  | vertexProperty v p kind => exact places_planVertexProperty reached keyed v p kind

/-- Whatever comes of a plan, each mixed update that it has come to is for a value of its mutation, and goes to
what the key of the value is called. -/
theorem placed_of_planned {s : FieldSpace} (more : base.Extends s.defaults)
    (settled : s.Settled c.types c.catalog.IsMixed) (mutation : Mutation) :
    ∀ u ∈ mixedsOf (c.planMutation mutation ⟨s, []⟩).2.planned, ∃ w ∈ c.writes base mutation,
      c.Places base w u := by
  obtain ⟨-, -, us, planned, placed⟩ := places_planMutation reached keyed mutation ⟨s, []⟩ more settled
  rw [planned]
  exact placed

end Steps

/-- The value is for a field that is kept up, or for a default field of an index that does not declare its key. -/
theorem maintained_of_mem_writes {mutation : Mutation} {w : FieldWrite} (listed : w ∈ c.writes base mutation) :
    ∀ f, w.index.field? w.key = some f → f.status.isMaintained = true := by
  have declared {u : UpdateContext} {key : SchemaId} {value : Value} {metadata : Properties}
      {d : IndexDefinition} (there : w ∈ declaredWrites u key value metadata d) :
      ∀ f, w.index.field? w.key = some f → f.status.isMaintained = true := by
    intro f found
    cases d with
    | composite i => cases there
    | mixed i =>
      rw [declaredWrites] at there
      cases field : i.field? key with
      | none =>
        rw [field] at there
        cases there
      | some g =>
        rw [field] at there
        simp only at there
        split at there
        · next maintained =>
          obtain rfl := List.mem_singleton.1 there
          rw [← Option.some.inj (field.symm.trans found)]
          exact maintained
        · cases there
  cases mutation with
  | relation r kind =>
    obtain ⟨entry, -, there⟩ := List.mem_flatMap.1 listed
    obtain ⟨d, -, there⟩ := List.mem_flatMap.1 there
    exact declared there
  | vertexProperty v p kind =>
    rcases List.mem_append.1 listed with there | there
    · obtain ⟨d, -, there⟩ := List.mem_flatMap.1 there
      exact declared there
    · intro f found
      rw [defaultWrites] at there
      split at there
      · obtain ⟨i, target, rfl⟩ := List.mem_map.1 there
        have undeclared := (Bool.and_eq_true_iff.1 (List.mem_filter.1 target).2).1
        rw [found] at undeclared
        cases undeclared
      · cases there

end Planner

end GraphStore
