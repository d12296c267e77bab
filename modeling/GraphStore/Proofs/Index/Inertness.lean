import GraphStore.Proofs.Index.Dormant
import GraphStore.Proofs.Index.Placement
import GraphStore.Proofs.Index.Registration
import GraphStore.Proofs.Search.MappingGates

/-!
What disabled fields come to. No plan writes to one. Two plans of a mutation, with and without the dormant fields of
an index, keep in step: what is planned, learned and asked for is the same after each of their steps, and only the
names in the caches differ. So do requests over the other keys. The names of an index are found all at once, though,
and so a dormant field that cannot be named spoils whatever needs a name of the index.
-/
namespace GraphStore

namespace FieldSpace

variable {types : Types} {indexes indexes' : MixedIndex → Prop} {s s' : FieldSpace} {i j : MixedIndex}
variable {key : SchemaId} {spoils : IndexFault → Prop}

/-- Two spaces that have learned the same, and in which no name is out of date. -/
structure Twin (types : Types) (indexes indexes' : MixedIndex → Prop) (s s' : FieldSpace) : Prop where
  defaults : s'.defaults = s.defaults
  calls : s'.calls = s.calls
  settled : s.Settled types indexes
  settled' : s'.Settled types indexes'

variable (apart : FieldTraffic.Apart indexes) (apart' : FieldTraffic.Apart indexes')
variable (one : indexes i) (one' : indexes' j) (same : MixedIndex.SameFor types spoils key i j)

include apart apart' one one' same

theorem Twin.resolve_result (twin : Twin types indexes indexes' s s') :
    (∃ fault, (resolve types i key s).1 = .error fault ∧ spoils fault) ∨
      (resolve types j key s').1 = (resolve types i key s).1 := by
  have unnamed : unnamed j key = unnamed i key := by
    rw [FieldSpace.unnamed, FieldSpace.unnamed, same.source_eq, same.name_eq]
  rw [twin.settled.resolve_result apart one, twin.settled'.resolve_result apart' one', twin.defaults, unnamed]
  rcases same.names s.defaults with ⟨fault, failed, spoilt⟩ | named
  · rw [failed]
    exact .inl ⟨.core fault, rfl, spoilt⟩
  · rw [named]
    exact .inr rfl

/-- Lookups of a key keep in step. -/
theorem agree_resolve : Attempt.Agree (Twin types indexes indexes') spoils (resolve types i key)
    (resolve types j key) := by
  intro s s' twin
  refine (twin.resolve_result apart apart' one one' same).imp_right fun found => ⟨found, ?_, ?_, ?_, ?_⟩
  · rw [(still_resolve types i key s).1, (still_resolve types j key s').1, twin.defaults]
  · rw [(still_resolve types i key s).2, (still_resolve types j key s').2, twin.calls]
  · exact (moves_resolve one key s).settled apart twin.settled
  · exact (moves_resolve one' key s').settled apart' twin.settled'

/-- A registration asks the same of both indexes, and both learn the same. -/
theorem agree_ensureRegistered (f : DefaultField) (registrar : Registrar) :
    Attempt.Agree (Twin types indexes indexes') spoils (ensureRegistered i f registrar)
      (ensureRegistered j f registrar) := by
  intro s s' twin
  have request : f.request j = f.request i := by
    rw [DefaultField.request, DefaultField.request, same.store_eq, same.name_eq]
  have run : (ensureRegistered j f registrar s').1 = (ensureRegistered i f registrar s).1 ∧
      (ensureRegistered j f registrar s').2.defaults = (ensureRegistered i f registrar s).2.defaults ∧
      (ensureRegistered j f registrar s').2.calls = (ensureRegistered i f registrar s).2.calls := by
    simp only [ensureRegistered, request, twin.defaults, twin.calls]
    split
    · exact ⟨rfl, twin.defaults, twin.calls⟩
    · cases registrar s.calls (f.request i) with
      | ok done => exact ⟨rfl, rfl, rfl⟩
      | error fault => exact ⟨rfl, rfl, rfl⟩
  exact .inr ⟨run.1, run.2.1, run.2.2, (moves_ensureRegistered one f registrar s).settled apart twin.settled,
    (moves_ensureRegistered one' f registrar s').settled apart' twin.settled'⟩

end FieldSpace

/-- Two plans that have come to the same, with the same default fields. -/
structure PlanState.Twin (types : Types) (indexes indexes' : MixedIndex → Prop) (d : DefaultFields)
    (s s' : PlanState) : Prop where
  planned : s'.planned = s.planned
  space : s.space.Twin types indexes indexes' s'.space
  learned : d.Extends s.space.defaults

namespace Planning

variable {types : Types} {indexes indexes' : MixedIndex → Prop} {spoils : IndexFault → Prop} {d : DefaultFields}
variable {α : Type}

theorem agree_emit (u : IndexUpdate) :
    Attempt.Agree (PlanState.Twin types indexes indexes' d) spoils (emit u) (emit u) :=
  fun _ _ twin => .inr ⟨rfl, congrArg (· ++ [u]) twin.planned, twin.space, twin.learned⟩

theorem agree_inSpace {step step' : Attempt FieldSpace IndexFault α}
    (agree : Attempt.Agree (FieldSpace.Twin types indexes indexes') spoils step step')
    (leads : step.Moves (FieldSpace.Leads types indexes)) :
    Attempt.Agree (PlanState.Twin types indexes indexes' d) spoils (inSpace step) (inSpace step') := by
  intro s s' twin
  rcases agree s.space s'.space twin.space with spoilt | ⟨same, space⟩
  · exact .inl spoilt
  · exact .inr ⟨same, twin.planned, space, twin.learned.trans (leads s.space).extends⟩

end Planning

namespace Planner

open Planning

/-- The planner for the catalog without the dormant fields of an index. -/
def pruned (d : DefaultFields) (m : MixedIndex) (c : Planner) : Planner := { c with catalog := c.catalog.prune d m }

/-- The planner's step and that of the pruned planner keep in step. -/
abbrev InStep (c : Planner) (d : DefaultFields) (m : MixedIndex) {α : Type} (step step' : Planning α) : Prop :=
  Attempt.Agree (PlanState.Twin c.types c.catalog.IsMixed (c.pruned d m).catalog.IsMixed d) (m.DormantFault c.types d)
    step step'

variable {c : Planner} {d : DefaultFields} {m i : MixedIndex} {u : UpdateContext} {key : SchemaId} {value : Value}
variable {metadata : Properties}

theorem inStep_planComposite (i : CompositeIndex) (found : List Match) :
    c.InStep d m (c.planComposite u i found) ((c.pruned d m).planComposite u i found) :=
  .each fun _ _ => .bind (.lift _) fun _ => agree_emit _

theorem mixedUpdate_pruned {types : Types} {spoils : IndexFault → Prop} {j : MixedIndex}
    (same : MixedIndex.SameFor types spoils key i j) (name : String) (type : RelationType) :
    (c.pruned d m).mixedUpdate u j name type value metadata = c.mixedUpdate u i name type value metadata := by
  rw [mixedUpdate, mixedUpdate, same.id_eq, same.store_eq]
  rfl

section Steps

variable (reached : c.catalog.Reachable) (known : c.catalog.IsMixed m)

include reached known

theorem planField_idle (one : c.catalog.IsMixed i) (here : i.id = m.id) (asleep : key ∈ m.dormant d) :
    c.planField u i key value metadata = pure () := by
  obtain rfl := reached.apart i m one known (.inl here)
  rw [planField]
  cases field : i.field? key with
  | none => rfl
  | some f =>
    have distinct := (reached.tidy.keyed i.id (.mixed i) known).2
    have disabled := MixedIndex.status_of_dormant distinct asleep field
    simp [disabled, IndexStatus.isMaintained]

theorem inStep_planField (one : c.catalog.IsMixed i) (awake : i.id = m.id → key ∉ m.dormant d) :
    c.InStep d m (c.planField u i key value metadata)
      ((c.pruned d m).planField u (i.standIn d m.id) key value metadata) := by
  have same := Catalog.sameFor_standIn reached known c.types one awake
  have one' := Catalog.isMixed_standIn (d := d) reached known one
  have apart' := Catalog.apart_prune (d := d) reached known
  rw [planField, planField, same.field]
  cases i.field? key with
  | none => exact .pure ()
  | some f =>
    simp only
    split
    · have found := FieldSpace.agree_resolve reached.apart apart' one one' same
      refine .bind (agree_inSpace found (FieldSpace.moves_resolve one key)) fun name => .bind (.lift _) fun type => ?_
      rw [mixedUpdate_pruned same]
      exact agree_emit _
    · exact .pure ()

theorem applying_pruned (category : ElementCategory) (label : Option SchemaId) :
    (c.pruned d m).applying key category label =
      (c.applying key category label).filterMap (IndexDefinition.standIn? d m key) := by
  rw [applying, applying, pruned, Catalog.indexesForKey_prune reached known, List.filter_filterMap,
    List.filterMap_filter]
  refine List.filterMap_congr fun e _ => ?_
  rw [IndexDefinition.standIn?]
  split
  · simp
  · rw [Option.filter_some, IndexDefinition.standIn_appliesTo]

/-- An index over a key does the same as what stands in for it; one that the key no longer leads to does nothing. -/
theorem inStep_applying {f f' : IndexDefinition → Planning Unit}
    (composite : ∀ i, c.InStep d m (f (.composite i)) (f' (.composite i)))
    (mixed : ∀ i, f (.mixed i) = c.planField u i key value metadata)
    (mixed' : ∀ i, f' (.mixed i) = (c.pruned d m).planField u i key value metadata)
    (category : ElementCategory) (label : Option SchemaId) :
    c.InStep d m (Attempt.each f (c.applying key category label))
      (Attempt.each f' ((c.pruned d m).applying key category label)) := by
  have stands {e : IndexDefinition} (there : e ∈ c.applying key category label) : c.catalog.get? e.id = some e :=
    ((Catalog.mem_indexesForKey reached.sound).1 (List.mem_filter.1 there).1).1
  rw [applying_pruned reached known]
  refine .each_filterMap (fun e there e' picked => ?_) fun e there gone => ?_
  · rw [IndexDefinition.standIn?] at picked
    split at picked
    · cases picked
    · next awake =>
      obtain rfl := Option.some.inj picked
      cases e with
      | composite i => exact composite i
      | mixed i =>
        rw [mixed, IndexDefinition.standIn, mixed']
        exact inStep_planField reached known (stands there) fun here asleep => awake ⟨here, asleep⟩
  · rw [IndexDefinition.standIn?] at gone
    split at gone
    · next both =>
      -- the key has lost its way to the pruned index only, and only where its field there is disabled
      cases e with
      | composite i =>
        have other : c.catalog.get? m.id = some (.composite i) := both.1 ▸ stands there
        cases other.symm.trans known
      | mixed i =>
        rw [mixed]
        exact planField_idle reached known (stands there) both.1 both.2
    · cases gone

theorem inStep_planRelation (r : Relation) (kind : UpdateKind) :
    c.InStep d m (c.planRelation r kind) ((c.pruned d m).planRelation r kind) := by
  rw [planRelation, planRelation]
  refine .bind (.lift _) fun type => .each fun e there => ?_
  refine inStep_applying reached known (fun i => ?_) (fun i => rfl) (fun i => rfl) r.category (some r.type)
  rw [planRelationIndex, planRelationIndex]
  split
  · exact inStep_planComposite i _
  · exact .pure ()

theorem defaultTargets_pruned (awake : key ∉ m.dormant d) (label : Option SchemaId) :
    (c.pruned d m).defaultTargets key label = (c.defaultTargets key label).map (·.standIn d m.id) := by
  rw [defaultTargets, defaultTargets, pruned, Catalog.mixedIndexes_prune reached known, List.filter_map]
  refine congrArg _ (List.filter_congr fun i there => ?_)
  rw [Function.comp_apply, MixedIndex.standIn]
  split
  · next here =>
    obtain rfl := reached.apart i m ((Catalog.mem_mixedIndexes reached.sound).1 there) known (.inl here)
    rw [MixedIndex.field?_pruned awake]
    rfl
  · rfl

theorem inStep_planDefaultIndex (one : c.catalog.IsMixed i) (registrar : Registrar) {f : DefaultField}
    (awake : f.key ∉ m.dormant d) (type : RelationType) (p : VertexProperty) :
    c.InStep d m (c.planDefaultIndex u registrar f type p i)
      ((c.pruned d m).planDefaultIndex u registrar f type p (i.standIn d m.id)) := by
  have same := Catalog.sameFor_standIn reached known c.types one fun _ => awake
  have one' := Catalog.isMixed_standIn (d := d) reached known one
  have apart' := Catalog.apart_prune (d := d) reached known
  rw [planDefaultIndex, planDefaultIndex, mixedUpdate_pruned same]
  cases u.kind with
  | delete => exact agree_emit _
  | add =>
    have asked := FieldSpace.agree_ensureRegistered reached.apart apart' one one' same f registrar
    exact .bind (agree_inSpace asked (FieldSpace.moves_ensureRegistered one f registrar)) fun _ => agree_emit _

theorem inStep_planDefault (v : Vertex) (p : VertexProperty) {f : DefaultField} (field : d.field? f.key = some f) :
    c.InStep d m (c.planDefault u v p f) ((c.pruned d m).planDefault u v p f) := by
  have awake : f.key ∉ m.dormant d := MixedIndex.not_mem_dormant field
  have backed : (c.pruned d m).registrar = c.registrar := rfl
  rw [planDefault, planDefault, defaultTargets_pruned reached known awake, backed]
  cases c.registrar with
  | none => exact .pure ()
  | some registrar =>
    refine .bind (.lift _) fun type => .each_map fun i there => ?_
    have one := (Catalog.mem_mixedIndexes reached.sound).1 (List.mem_filter.1 there).1
    exact inStep_planDefaultIndex reached known one registrar awake type p

theorem inStep_planVertexProperty (keyed : d.Keyed) (v : Vertex) (p : VertexProperty) (kind : UpdateKind) :
    c.InStep d m (c.planVertexProperty v p kind) ((c.pruned d m).planVertexProperty v p kind) := by
  rw [planVertexProperty, planVertexProperty]
  refine .bind ?_ fun _ => .get_bind fun s s' twin => ?_
  · refine inStep_applying reached known (fun i => ?_) (fun i => rfl) (fun i => rfl) .vertex v.label
    rw [planVertexIndex, planVertexIndex]
    split
    · exact inStep_planComposite i _
    · exact .pure ()
  · -- what was learned on the way has changed no default field, so its key is still awake
    have fields : s.space.defaults.field? p.key = d.field? p.key := congrArg (·.get? p.key) twin.learned.fields
    rw [twin.space.defaults, fields]
    cases field : d.field? p.key with
    | none => exact .pure ()
    | some f =>
      refine inStep_planDefault reached known v p ?_
      rwa [keyed p.key f field]

theorem inStep_planMutation (keyed : d.Keyed) (mutation : Mutation) :
    c.InStep d m (c.planMutation mutation) ((c.pruned d m).planMutation mutation) := by
  cases mutation with
  | relation r kind => exact inStep_planRelation reached known r kind
  | vertexProperty v p kind => exact inStep_planVertexProperty reached known keyed v p kind

/-- A plan that starts with an empty cache comes to the same without the dormant fields, unless one of them spoils
it. -/
theorem plan_pruned (keyed : d.Keyed) (mutation : Mutation) :
    (∃ fault, (c.plan mutation (.new d)).1 = .error fault ∧ m.DormantFault c.types d fault) ∨
      ((c.pruned d m).plan mutation (.new d)).1 = (c.plan mutation (.new d)).1 := by
  have start : PlanState.Twin c.types c.catalog.IsMixed (c.pruned d m).catalog.IsMixed d ⟨.new d, []⟩ ⟨.new d, []⟩ :=
    ⟨rfl, ⟨rfl, rfl, FieldTraffic.sound_new d, FieldTraffic.sound_new d⟩, .refl d⟩
  rw [plan_run, plan_run]
  rcases inStep_planMutation reached known keyed mutation _ _ start with ⟨fault, failed, spoilt⟩ | ⟨same, twin⟩
  · rw [failed]
    exact .inl ⟨fault, rfl, spoilt⟩
  · rw [same, twin.planned]
    exact .inr rfl

end Steps

end Planner

namespace Translator

variable {t : Translator} {m : MixedIndex} {d : DefaultFields} {key : SchemaId}

/-- The step for an index and that for the pruned one keep in step. -/
abbrev InStep (t : Translator) (d : DefaultFields) (m : MixedIndex) {α : Type}
    (step step' : Attempt FieldSpace IndexFault α) : Prop :=
  Attempt.Agree (FieldSpace.Twin t.types (· = m) (· = m.pruned d)) (m.DormantFault t.types d) step step'

theorem inStep_field (awake : key ∉ m.dormant d) : t.InStep d m (t.field m key) (t.field (m.pruned d) key) := by
  have same := MixedIndex.sameFor_pruned t.types awake
  have apart (i : MixedIndex) : FieldTraffic.Apart (· = i) := fun _ _ one other _ => one.trans other.symm
  refine .bind (FieldSpace.agree_resolve (apart m) (apart (m.pruned d)) rfl rfl same) fun name => ?_
  refine .get_bind fun s s' twin => ?_
  have mapped : mapping s'.defaults (m.pruned d) key name = mapping s.defaults m key name := by
    rw [mapping, mapping, same.field, same.name_eq, twin.defaults]
  rw [mapped]
  exact .bind (.lift _) fun _ => .pure _

mutual

theorem inStep_lower : ∀ {condition : Condition}, (∀ test ∈ condition.tests, test.key ∉ m.dormant d) →
    t.InStep d m (t.lower m condition) (t.lower (m.pruned d) condition)
  | .and [], _ => by
    rw [lower, lower]
    exact .pure _
  | .or [], _ => by
    rw [lower, lower]
    exact .pure _
  | .and (part :: rest), awake => by
    rw [lower, lower]
    exact .bind (inStep_lowerAll awake) fun _ => .pure _
  | .or (part :: rest), awake => by
    rw [lower, lower]
    exact .bind (inStep_lowerAll awake) fun _ => .pure _
  | .not part, awake => by
    rw [lower, lower]
    exact .bind (inStep_lower awake) fun _ => .pure _
  | .leaf key p v, awake => by
    rw [lower, lower]
    exact .bind (inStep_field (awake ⟨key, p, v⟩ (List.mem_singleton.2 rfl))) fun _ => .lift _

theorem inStep_lowerAll : ∀ {parts : List Condition},
    (∀ test ∈ Condition.testsOf parts, test.key ∉ m.dormant d) →
      t.InStep d m (t.lowerAll m parts) (t.lowerAll (m.pruned d) parts)
  | [], _ => by
    rw [lowerAll, lowerAll]
    exact .pure _
  | part :: rest, awake => by
    obtain ⟨first, others⟩ := List.forall_mem_append.1 awake
    rw [lowerAll, lowerAll]
    exact .bind (inStep_lower first) fun _ => .bind (inStep_lowerAll others) fun _ => .pure _

end

theorem inStep_sortClauses {order : List OrderBy} (awake : ∀ o ∈ order, o.key ∉ m.dormant d) :
    t.InStep d m (t.sortClauses m order) (t.sortClauses (m.pruned d) order) := by
  induction order with
  | nil => exact .pure []
  | cons o rest ih =>
    obtain ⟨first, others⟩ := List.forall_mem_cons.1 awake
    rw [sortClauses, sortClauses]
    exact .bind (inStep_field first) fun _ => .bind (.lift _) fun _ => .bind (ih others) fun _ => .pure _

/-- A request over other keys comes to the same without the dormant fields, unless one of them spoils it. -/
theorem request_pruned {condition : Condition} {order : List OrderBy}
    (asked : ∀ test ∈ condition.tests, test.key ∉ m.dormant d) (sorted : ∀ o ∈ order, o.key ∉ m.dormant d) :
    (∃ fault, (t.request m condition order (.new d)).1 = .error fault ∧ m.DormantFault t.types d fault) ∨
      (t.request (m.pruned d) condition order (.new d)).1 = (t.request m condition order (.new d)).1 := by
  have steps : t.InStep d m (t.request m condition order) (t.request (m.pruned d) condition order) :=
    .bind (inStep_lower asked) fun _ => .bind (inStep_sortClauses sorted) fun _ => .pure _
  have start : FieldSpace.Twin t.types (· = m) (· = m.pruned d) (.new d) (.new d) :=
    ⟨rfl, rfl, FieldTraffic.sound_new d, FieldTraffic.sound_new d⟩
  exact (steps _ _ start).imp_right And.left

end Translator

namespace Planner

variable {c : Planner} {d : DefaultFields} {m : MixedIndex}

/-- What is planned for mixed indexes goes to no disabled field. Besides, plans and requests over the other keys of an
index come to what they come to without its dormant fields, unless they fail since one of these cannot be named. -/
theorem disabled_inert (reached : c.catalog.Reachable) (keyed : d.Keyed) (known : c.catalog.IsMixed m) :
    (∀ mutation, ∀ u ∈ mixedsOf (c.planMutation mutation ⟨.new d, []⟩).2.planned,
      ∃ w ∈ c.writes d mutation, c.Places d w u ∧ ∀ f, w.index.field? w.key = some f → f.status ≠ .disabled) ∧
    (∀ mutation,
      (∃ fault, (c.plan mutation (.new d)).1 = .error fault ∧ m.DormantFault c.types d fault) ∨
        ((c.pruned d m).plan mutation (.new d)).1 = (c.plan mutation (.new d)).1) ∧
    ∀ (t : Translator) (condition : Condition) (order : List OrderBy),
      (∀ test ∈ condition.tests, test.key ∉ m.dormant d) → (∀ o ∈ order, o.key ∉ m.dormant d) →
        (∃ fault, (t.request m condition order (.new d)).1 = .error fault ∧ m.DormantFault t.types d fault) ∨
          (t.request (m.pruned d) condition order (.new d)).1 = (t.request m condition order (.new d)).1 := by
  refine ⟨fun mutation u there => ?_, plan_pruned reached known keyed, fun t condition order asked sorted => ?_⟩
  · have settled : FieldSpace.Settled c.types c.catalog.IsMixed (.new d) := FieldTraffic.sound_new d
    obtain ⟨w, listed, placed⟩ := placed_of_planned reached keyed (.refl d) settled mutation u there
    refine ⟨w, listed, placed, fun f field => ?_⟩
    simpa [IndexStatus.isMaintained] using maintained_of_mem_writes listed f field
  · exact Translator.request_pruned asked sorted

/-- The years of vertices, and a field out of use whose key has left the schema. -/
def retired (name : Option String) : MixedIndex :=
  ⟨.ofNat 21, "search", "es", .vertex, [⟨Schema.since.id, .enabled, .default, none⟩,
    ⟨.ofNat 99, .disabled, .default, name⟩], none, .managed⟩

def retiredPlanner (name : Option String) : Planner :=
  { searchPlanner with
    catalog := ⟨.ofList [((retired name).id, .mixed (retired name))], [((retired name).name, (retired name).id)],
      .ofList [(Schema.since.id, [(retired name).id]), (.ofNat 99, [(retired name).id])]⟩ }

def retiredSearch : Translator := ⟨searchPlanner.types, .default⟩

def annSince : Mutation := .vertexProperty ⟨"ann", none, []⟩ ⟨"p", Schema.since.id, .int 2001, .empty⟩ .add

/-- A field out of use that is mapped to a name is in nobody's way. -/
theorem disabled_inert_retired : ∃ set r,
    (retired (some "old")).dormant .empty = [.ofNat 99] ∧
    ((retiredPlanner (some "old")).plan annSince (.new .empty)).1 = .ok set ∧ set.updates = [.mixed annYear] ∧
    (((retiredPlanner (some "old")).pruned .empty (retired (some "old"))).plan annSince (.new .empty)).1 = .ok set ∧
    (retiredSearch.request (retired (some "old")) (.equals Schema.since.id (.int 2001)) [] (.new .empty)).1 = .ok r ∧
    (retiredSearch.request ((retired (some "old")).pruned .empty) (.equals Schema.since.id (.int 2001)) []
      (.new .empty)).1 = .ok r := by
  have reached : (retiredPlanner (some "old")).catalog.Reachable :=
    Catalog.Reachable.empty.create (d := .mixed (retired (some "old"))) rfl
  obtain ⟨-, plans, requests⟩ := disabled_inert reached DefaultFields.keyed_empty
    (m := retired (some "old")) rfl
  have awake : Schema.since.id ∉ (retired (some "old")).dormant .empty := by decide
  rcases plans annSince with ⟨fault, failed, -⟩ | planned
  · cases failed
  · rcases requests retiredSearch (.equals Schema.since.id (.int 2001)) []
      (fun test there => List.mem_singleton.1 there ▸ awake) nofun with ⟨fault, failed, -⟩ | asked
    · cases failed
    · exact ⟨_, _, rfl, rfl, rfl, planned, rfl, asked⟩

/-- If it is to be named after its key, nothing else of the index can be planned or asked for. -/
theorem disabled_spoils : ∃ set r,
    (retired none).dormant .empty = [.ofNat 99] ∧
    ((retiredPlanner none).plan annSince (.new .empty)).1 = .error (.core (.unknownType (.ofNat 99))) ∧
    (((retiredPlanner none).pruned .empty (retired none)).plan annSince (.new .empty)).1 = .ok set ∧
    set.updates = [.mixed annYear] ∧
    (retiredSearch.request (retired none) (.equals Schema.since.id (.int 2001)) [] (.new .empty)).1 =
      .error (.core (.unknownType (.ofNat 99))) ∧
    (retiredSearch.request ((retired none).pruned .empty) (.equals Schema.since.id (.int 2001)) []
      (.new .empty)).1 = .ok r :=
  ⟨_, _, rfl, rfl, rfl, rfl, rfl, rfl⟩

end Planner

end GraphStore
