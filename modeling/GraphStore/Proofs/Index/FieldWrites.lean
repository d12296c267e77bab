import GraphStore.Proofs.Index.Accumulation
import GraphStore.Proofs.Index.FieldSpace

/-!
What a plan that succeeds sends to search backends. The values that a mutation has for the fields of mixed
indexes are known beforehand, and the plan holds an update for each of them in turn. A declared field is found
in the cache and a default field in the registry, but both names are those that the index has from then on.
-/
namespace GraphStore

/-- The mixed index stands in the catalog. -/
def Catalog.IsMixed (c : Catalog) (i : MixedIndex) : Prop := c.get? i.id = some (.mixed i)

theorem Catalog.Reachable.apart {c : Catalog} (reached : c.Reachable) :
    FieldTraffic.Apart c.IsMixed := by
  intro i j one other same
  have id : i.id = j.id := by
    obtain id | ⟨-, name⟩ := same
    · exact id
    · exact reached.eq_of_name one other name
  rw [Catalog.IsMixed, id, other] at one
  exact (IndexDefinition.mixed.inj (Option.some.inj one)).symm

/-- A value for a field of a mixed index, and what a plan says of it. -/
structure FieldWrite where
  context : UpdateContext
  index : MixedIndex
  key : SchemaId
  value : Value
  metadata : Properties

/-- The index declares the key, or learns of it with the value. Only the removal of a default field may come to
an index that has not learned of it. -/
def FieldWrite.IsNamed (w : FieldWrite) : Prop :=
  (w.index.field? w.key).isSome = true ∨ w.context.kind = .add

namespace Planner

/-- The update is the one for the value; its field may have any name. -/
def Makes (c : Planner) (w : FieldWrite) (u : MixedUpdate) : Prop :=
  ∃ type, c.types.existing w.key = .ok type ∧
    c.mixedUpdate w.context w.index u.field type w.value w.metadata = .mixed u

/-- The update is the one for the value, and goes to the field of its key. -/
structure Lands (c : Planner) (d : DefaultFields) (w : FieldWrite) (u : MixedUpdate) : Prop where
  known : c.catalog.IsMixed w.index
  makes : c.Makes w u
  named : w.IsNamed → ∀ names, FieldNames.ofIndex c.types d w.index = .ok names →
    names.get? w.key = some u.field
  /-- A declared field has been looked up, so the index has names. -/
  declared : (w.index.field? w.key).isSome = true →
    ∃ names, FieldNames.ofIndex c.types d w.index = .ok names

/-- A value for one of the indexes over its key, if that is a mixed one which keeps the field up. -/
def declaredWrites (u : UpdateContext) (key : SchemaId) (v : Value) (metadata : Properties) :
    IndexDefinition → List FieldWrite
  | .composite _ => []
  | .mixed i =>
    match i.field? key with
    | none => []
    | some f => if f.status.isMaintained then [⟨u, i, key, v, metadata⟩] else []

def relationWrites (c : Planner) (r : Relation) (kind : UpdateKind) : List FieldWrite :=
  let u : UpdateContext := ⟨.relation r.identity, kind, (c.types.type? r.type).bind (·.ttl)⟩
  (r.properties.entries.filter fun e => !ImplicitKey.isReserved e.1).flatMap fun e =>
    (c.applying e.1 r.category (some r.type)).flatMap (declaredWrites u e.1 e.2 r.properties)

/-- A value for the indexes that take in its key as that of a default field. -/
def defaultWrites (c : Planner) (d : DefaultFields) (u : UpdateContext) (v : Vertex)
    (p : VertexProperty) : List FieldWrite :=
  match c.registrar, d.field? p.key with
  | some _, some _ => (c.defaultTargets p.key v.label).map fun i => ⟨u, i, p.key, p.value, p.metadata⟩
  | _, _ => []

/-- The values that a mutation has for the fields of mixed indexes, in the order of their updates. -/
def writes (c : Planner) (d : DefaultFields) : Mutation → List FieldWrite
  | .relation r kind => c.relationWrites r kind
  | .vertexProperty v p kind =>
    (c.applying p.key .vertex v.label).flatMap
        (declaredWrites (c.vertexContext v kind) p.key p.value p.metadata) ++
      c.defaultWrites d (c.vertexContext v kind) v p

end Planner

/-- The steps of a plan on what it shares, where the default fields are those that were there first. -/
def PlanState.Leads (types : Types) (indexes : MixedIndex → Prop) (base : DefaultFields)
    (s s' : PlanState) : Prop :=
  base.Extends s.space.defaults → FieldSpace.Leads types indexes s.space s'.space

section

variable (types : Types) (indexes : MixedIndex → Prop) (base : DefaultFields)

instance : Std.Refl (PlanState.Leads types indexes base) := ⟨fun s _ => Std.Refl.refl s.space⟩

instance : IsTrans PlanState (PlanState.Leads types indexes base) where
  trans s _ _ first second more :=
    IsTrans.trans s.space _ _ (first more) (second (more.trans (first more).extends))

end

namespace Planner

open Planning

variable {α β : Type} {c : Planner} {d e base : DefaultFields} {w : FieldWrite} {x : MixedUpdate}
variable {step : Planning α} {ws vs : List FieldWrite} {u : UpdateContext} {i : MixedIndex}
variable {key : SchemaId} {v : Vertex} {p : VertexProperty} {kind : UpdateKind}

/-- Where an update has landed it stays, whatever more the indexes learn. -/
theorem Lands.mono (keyed : d.Keyed) (more : d.Extends e) (lands : c.Lands d w x) : c.Lands e w x where
  known := lands.known
  makes := lands.makes
  named named names' made' := by
    obtain ⟨names, made⟩ := FieldNames.ofIndex_ok_of made' d
    exact FieldNames.get?_mono keyed more made made' (lands.named named names made)
  declared there := by
    obtain ⟨names, made⟩ := lands.declared there
    exact FieldNames.ofIndex_ok_of made e

/-- The step keeps to the steps of a cache in use. If it succeeds in a sound one, it adds an update for each of
some values, besides composite ones. -/
structure Sends (c : Planner) (base : DefaultFields) (step : Planning α) (ws : List FieldWrite) :
    Prop where
  moves : step.Moves (PlanState.Leads c.types c.catalog.IsMixed base)
  lands : ∀ s a s', s.space.Settled c.types c.catalog.IsMixed → base.Extends s.space.defaults →
    step s = (.ok a, s') → ∃ us, mixedsOf s'.planned = mixedsOf s.planned ++ us ∧
      List.Forall₂ (c.Lands s'.space.defaults) ws us

theorem Sends.of_still (still : ∀ s, (step s).2 = s) : c.Sends base step [] where
  moves := .of_still still
  lands s a s' _ _ run := by
    have same : s' = s := by rw [← still s, run]
    exact ⟨[], by rw [same, List.append_nil], .nil⟩

theorem sends_pure (a : α) : c.Sends base (pure a) [] := .of_still fun _ => rfl

/-- What a lookup in the schema gives does not touch the plan. -/
theorem Sends.ofFault_bind {found : Except Fault α} {next : α → Planning β}
    (sends : ∀ a, found = .ok a → c.Sends base (next a) ws) :
    c.Sends base (ofFault found >>= next) ws := by
  cases found with
  | ok a => exact sends a rfl
  | error fault =>
    exact ⟨.of_still fun _ => rfl, fun s a s' _ _ run => nomatch (Prod.mk.inj run).1⟩

theorem Sends.get_bind {next : PlanState → Planning β}
    (sends : ∀ s, base.Extends s.space.defaults → c.Sends base (next s) ws) :
    c.Sends base (Attempt.get >>= next) ws where
  moves s more := (sends s more).moves s more
  lands s b s' settled more run := (sends s more).lands s b s' settled more run

/-- A value goes out once the name of its field is settled. -/
theorem sends_emit {name : String} {type : RelationType} (known : c.catalog.IsMixed w.index)
    (typed : c.types.existing w.key = .ok type) {s s' : PlanState}
    (named : w.IsNamed → ∀ names, FieldNames.ofIndex c.types s.space.defaults w.index = .ok names →
      names.get? w.key = some name)
    (declared : (w.index.field? w.key).isSome = true →
      ∃ names, FieldNames.ofIndex c.types s.space.defaults w.index = .ok names)
    (run : emit (c.mixedUpdate w.context w.index name type w.value w.metadata) s = (.ok (), s')) :
    ∃ us, mixedsOf s'.planned = mixedsOf s.planned ++ us ∧
      List.Forall₂ (c.Lands s'.space.defaults) [w] us := by
  obtain ⟨-, rfl⟩ := Prod.mk.inj run
  exact ⟨[_], mixedsOf_append, .cons ⟨known, ⟨type, typed, rfl⟩, named, declared⟩ .nil⟩

section Steps

variable (reached : c.catalog.Reachable) (keyed : base.Keyed)

include reached keyed

theorem Sends.bind {next : α → Planning β} (first : c.Sends base step ws)
    (second : ∀ a, c.Sends base (next a) vs) : c.Sends base (step >>= next) (ws ++ vs) where
  moves := first.moves.bind fun a => (second a).moves
  lands s b s' settled more run := by
    obtain ⟨a, middle, one, two⟩ := Attempt.bind_run_ok_iff.1 run
    have there : FieldSpace.Leads c.types c.catalog.IsMixed s.space middle.space := by
      rw [← show (step s).2 = middle by rw [one]]
      exact first.moves s more
    have more' := more.trans there.extends
    have on : FieldSpace.Leads c.types c.catalog.IsMixed middle.space s'.space := by
      rw [← show (next a middle).2 = s' by rw [two]]
      exact (second a).moves middle more'
    obtain ⟨us, planned, landed⟩ := first.lands s a middle settled more one
    obtain ⟨us', planned', landed'⟩ :=
      (second a).lands middle b s' (there.settled reached.apart settled) more' two
    refine ⟨us ++ us', by rw [planned', planned, List.append_assoc], List.rel_append ?_ landed'⟩
    exact landed.imp fun _ _ lands => lands.mono (more'.keyed keyed) on.extends

theorem sends_each {step : α → Planning Unit} {sent : α → List FieldWrite} {l : List α}
    (sends : ∀ a ∈ l, c.Sends base (step a) (sent a)) :
    c.Sends base (Attempt.each step l) (l.flatMap sent) := by
  induction l with
  | nil => exact sends_pure ()
  | cons a rest ih =>
    obtain ⟨first, others⟩ := List.forall_mem_cons.1 sends
    exact first.bind reached keyed fun _ => ih others

theorem sends_planComposite (u : UpdateContext) (i : CompositeIndex) (found : List Match) :
    c.Sends base (c.planComposite u i found) [] := by
  have each : ∀ m ∈ found, c.Sends base (do emit (← ofFault (c.compositeUpdate u i m))) [] := by
    intro m _
    refine .ofFault_bind fun made same => ?_
    obtain ⟨x, rfl, -⟩ := compositeUpdate_ok same
    refine ⟨fun s _ => Std.Refl.refl s.space, fun s a s' _ _ run => ⟨[], ?_, .nil⟩⟩
    obtain ⟨-, rfl⟩ := Prod.mk.inj run
    rw [mixedsOf_append, mixedsOf_composite]
    rfl
  have sent := sends_each reached keyed each
  rwa [List.flatMap_eq_nil_iff.2 fun _ _ => rfl] at sent

/-- A declared field has the name that a query would find. -/
theorem sends_planField (known : c.catalog.IsMixed i) (u : UpdateContext) (key : SchemaId) (v : Value)
    (metadata : Properties) :
    c.Sends base (c.planField u i key v metadata) (declaredWrites u key v metadata (.mixed i)) := by
  rw [planField, declaredWrites]
  cases declared : i.field? key with
  | none => exact sends_pure ()
  | some f =>
    simp only
    split
    · have looks : (inSpace (FieldSpace.resolve c.types i key)).Moves
          (PlanState.Leads c.types c.catalog.IsMixed base) :=
        fun s _ => FieldSpace.moves_resolve known key s.space
      refine ⟨?_, fun s a s' settled more run => ?_⟩
      · refine looks.bind fun name => ?_
        exact (Attempt.Moves.of_still fun _ => rfl).bind fun type => fun s _ => Std.Refl.refl s.space
      · obtain ⟨name, _, resolved, run⟩ := Attempt.bind_run_ok_iff.1 run
        obtain ⟨type, middle, found, made⟩ := Attempt.bind_run_ok_iff.1 run
        obtain ⟨typed, rfl⟩ := ofFault_ok found
        have result : (FieldSpace.resolve c.types i key s.space).1 = .ok name := congrArg Prod.fst resolved
        obtain rfl : (inSpace (FieldSpace.resolve c.types i key) s).2 = middle := by rw [resolved]
        have leads := looks s more
        have still := settled.resolve_mono reached.apart known (more.keyed keyed) leads result
        obtain ⟨names, there, named⟩ :=
          ((leads.settled reached.apart settled).resolve_ok_iff reached.apart known).1 still
        have named' : ∀ names', FieldNames.ofIndex c.types _ i = .ok names' → names'.get? key = some name :=
          fun names' again => Except.ok.inj (there.symm.trans again) ▸ named
        exact sends_emit (w := ⟨u, i, key, v, metadata⟩) (s := (inSpace _ s).2) known typed
          (fun _ => named') (fun _ => ⟨names, there⟩) made
    · exact sends_pure ()

theorem sends_planRelationIndex (u : UpdateContext) (r : Relation) (v : Value) {d : IndexDefinition}
    (known : c.catalog.get? d.id = some d) : c.Sends base (c.planRelationIndex u r key v d)
      (declaredWrites u key v r.properties d) := by
  cases d with
  | mixed i => exact sends_planField reached keyed known u key v r.properties
  | composite i =>
    rw [planRelationIndex, declaredWrites]
    split
    · exact sends_planComposite reached keyed u i _
    · exact sends_pure ()

theorem sends_planVertexIndex (u : UpdateContext) (v : Vertex) (p : VertexProperty) {d : IndexDefinition}
    (known : c.catalog.get? d.id = some d) : c.Sends base (c.planVertexIndex u v p d)
      (declaredWrites u p.key p.value p.metadata d) := by
  cases d with
  | mixed i => exact sends_planField reached keyed known u p.key p.value p.metadata
  | composite i =>
    rw [planVertexIndex, declaredWrites]
    split
    · exact sends_planComposite reached keyed u i _
    · exact sends_pure ()

theorem sends_planRelation (r : Relation) (kind : UpdateKind) :
    c.Sends base (c.planRelation r kind) (c.relationWrites r kind) := by
  rw [planRelation]
  refine .ofFault_bind fun type found => ?_
  have ttl : (c.types.type? r.type).bind (·.ttl) = type.ttl := by rw [Types.existing_ok found]; rfl
  rw [relationWrites, ttl]
  refine sends_each reached keyed fun entry _ => sends_each reached keyed fun d there => ?_
  have listed := (List.mem_filter.1 there).1
  exact sends_planRelationIndex reached keyed _ r entry.2
    ((Catalog.mem_indexesForKey reached.sound).1 listed).1

omit reached in
/-- A default field that goes to an index has its reserved name there from then on. -/
theorem sends_planDefaultIndex (registrar : Registrar) {f : DefaultField} (field : base.field? p.key = some f)
    {type : RelationType} (typed : c.types.existing p.key = .ok type) (known : c.catalog.IsMixed i)
    (undeclared : i.field? p.key = none) (u : UpdateContext) :
    c.Sends base (c.planDefaultIndex u registrar f type p i) [⟨u, i, p.key, p.value, p.metadata⟩] := by
  have absent : (i.field? p.key).isSome ≠ true := by simp [undeclared]
  rw [planDefaultIndex]
  cases kind : u.kind with
  | delete =>
    refine ⟨fun s _ => Std.Refl.refl s.space, fun s a s' _ _ run => ?_⟩
    have unnamed : ¬FieldWrite.IsNamed ⟨u, i, p.key, p.value, p.metadata⟩ := by
      simp [FieldWrite.IsNamed, undeclared, kind]
    exact sends_emit known typed (fun named => absurd named unnamed) (fun there => absurd there absent) run
  | add =>
    have learns : (inSpace (FieldSpace.ensureRegistered i f registrar)).Moves
        (PlanState.Leads c.types c.catalog.IsMixed base) :=
      fun s _ => FieldSpace.moves_ensureRegistered known f registrar s.space
    refine ⟨?_, fun s a s' settled more run => ?_⟩
    · exact learns.bind fun _ => fun s _ => Std.Refl.refl s.space
    · obtain ⟨_, middle, learned, made⟩ := Attempt.bind_run_ok_iff.1 run
      have result : (FieldSpace.ensureRegistered i f registrar s.space).1 = .ok _ := congrArg Prod.fst learned
      obtain rfl : (inSpace (FieldSpace.ensureRegistered i f registrar) s).2 = middle := by rw [learned]
      have more' := more.trans (learns s more).extends
      have named : ∀ names, FieldNames.ofIndex c.types _ i = .ok names → names.get? p.key = some f.name :=
        fun names made => FieldNames.get?_of_learned (more'.keyed keyed)
          ((congrArg (·.get? p.key) more'.fields).trans field)
          (FieldSpace.ensureRegistered_ok (Prod.ext result rfl)) undeclared made
      exact sends_emit (w := ⟨u, i, p.key, p.value, p.metadata⟩) (s := (inSpace _ s).2) known typed
        (fun _ => named) (fun there => absurd there absent) made

theorem sends_planDefault {f : DefaultField} (field : base.field? p.key = some f) (u : UpdateContext)
    (v : Vertex) : c.Sends base (c.planDefault u v p f) (c.defaultWrites base u v p) := by
  rw [planDefault, defaultWrites, field]
  cases c.registrar with
  | none => exact sends_pure ()
  | some registrar =>
    refine .ofFault_bind fun type typed => ?_
    rw [keyed p.key f field] at typed ⊢
    have targets : ∀ i ∈ c.defaultTargets p.key v.label,
        c.Sends base (c.planDefaultIndex u registrar f type p i) [⟨u, i, p.key, p.value, p.metadata⟩] := by
      intro i there
      obtain ⟨listed, covers⟩ := List.mem_filter.1 there
      have undeclared : i.field? p.key = none := by simpa using (Bool.and_eq_true_iff.1 covers).1
      exact sends_planDefaultIndex keyed registrar field typed
        ((Catalog.mem_mixedIndexes reached.sound).1 listed) undeclared u
    have sent := sends_each reached keyed targets
    rwa [← List.map_eq_flatMap] at sent

theorem sends_planVertexProperty (v : Vertex) (p : VertexProperty) (kind : UpdateKind) :
    c.Sends base (c.planVertexProperty v p kind) (c.writes base (.vertexProperty v p kind)) := by
  have declared : c.Sends base
      (Attempt.each (c.planVertexIndex (c.vertexContext v kind) v p) (c.applying p.key .vertex v.label)) _ :=
    sends_each reached keyed fun d there => sends_planVertexIndex reached keyed (c.vertexContext v kind) v p
      ((Catalog.mem_indexesForKey reached.sound).1 (List.mem_filter.1 there).1).1
  refine declared.bind reached keyed fun _ => .get_bind fun s more => ?_
  have field : s.space.defaults.field? p.key = base.field? p.key := congrArg (·.get? p.key) more.fields
  rw [field]
  cases known : base.field? p.key with
  | none =>
    have nowhere : c.defaultWrites base (c.vertexContext v kind) v p = [] := by
      rw [defaultWrites, known]
      cases c.registrar <;> rfl
    rw [nowhere]
    exact sends_pure ()
  | some f => exact sends_planDefault reached keyed known (c.vertexContext v kind) v

theorem sends_planMutation (mutation : Mutation) :
    c.Sends base (c.planMutation mutation) (c.writes base mutation) := by
  cases mutation with
  | relation r kind => exact sends_planRelation reached keyed r kind
  | vertexProperty v p kind => exact sends_planVertexProperty reached keyed v p kind

theorem leads_planMutation {s : FieldSpace} (more : base.Extends s.defaults) (mutation : Mutation) :
    FieldSpace.Leads c.types c.catalog.IsMixed s (c.planMutation mutation ⟨s, []⟩).2.space :=
  (sends_planMutation reached keyed mutation).moves ⟨s, []⟩ more

/-- What a plan that succeeds is made of. -/
theorem plan_lands {mutation : Mutation} {s s' : FieldSpace} {set : UpdateSet}
    (settled : s.Settled c.types c.catalog.IsMixed) (more : base.Extends s.defaults)
    (planned : c.plan mutation s = (.ok set, s')) :
    FieldSpace.Leads c.types c.catalog.IsMixed s s' ∧ ∃ us, set = UpdateSet.empty.insertAll us ∧
      List.Forall₂ (c.Lands s'.defaults) (c.writes base mutation) (mixedsOf us) := by
  obtain ⟨after, run, rfl, rfl⟩ := plan_ok planned
  obtain ⟨us, sent, landed⟩ :=
    (sends_planMutation reached keyed mutation).lands ⟨s, []⟩ () after settled more run
  obtain rfl : us = mixedsOf after.planned := sent.symm
  refine ⟨?_, after.planned, rfl, landed⟩
  rw [← show (c.planMutation mutation ⟨s, []⟩).2 = after by rw [run]]
  exact leads_planMutation reached keyed more mutation

end Steps

end Planner

end GraphStore
