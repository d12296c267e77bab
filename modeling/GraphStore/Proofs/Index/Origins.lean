import GraphStore.Proofs.Index.FieldWrites

/-!
Where the updates of a plan come from. Whatever becomes of a plan, each update that it has come to belongs to
its mutation: it is for a match of a composite index, for a declared field of a mixed index, or for a default
field of an index that does not declare the key, and that one has learned of the field if the value comes.
-/
namespace GraphStore

def Mutation.kind : Mutation → UpdateKind
  | relation _ kind => kind
  | vertexProperty _ _ kind => kind

def Mutation.element : Mutation → Element
  | relation r _ => .relation r.identity
  | vertexProperty v _ _ => .vertex v.id

namespace Planner

/-- What the updates of a mutation have in common. -/
def context (c : Planner) : Mutation → UpdateContext
  | .relation r kind => ⟨.relation r.identity, kind, (c.types.type? r.type).bind (·.ttl)⟩
  | .vertexProperty v _ kind => c.vertexContext v kind

/-- An index that a mutation comes to through one of its keys. -/
inductive Touches (c : Planner) : Mutation → SchemaId → IndexDefinition → Prop where
  | relation {r : Relation} {kind : UpdateKind} {key : SchemaId} {v : Value} {d : IndexDefinition} :
      (key, v) ∈ r.properties.entries → ImplicitKey.isReserved key = false →
      d ∈ c.applying key r.category (some r.type) → Touches c (.relation r kind) key d
  | vertexProperty {v : Vertex} {p : VertexProperty} {kind : UpdateKind} {d : IndexDefinition} :
      d ∈ c.applying p.key .vertex v.label → Touches c (.vertexProperty v p kind) p.key d

/-- What an update of a plan is for. -/
inductive Origin (c : Planner) (d : DefaultFields) (mutation : Mutation) : IndexUpdate → Prop where
  | composite {i : CompositeIndex} {key : SchemaId} {found : Match} {x : IndexUpdate} :
      c.Touches mutation key (.composite i) →
      c.compositeUpdate (c.context mutation) i found = .ok x → Origin c d mutation x
  | declared {i : MixedIndex} {key : SchemaId} (name : String) (type : RelationType) (v : Value)
      (metadata : Properties) : c.Touches mutation key (.mixed i) → (i.field? key).isSome = true →
      Origin c d mutation (c.mixedUpdate (c.context mutation) i name type v metadata)
  | default {v : Vertex} {p : VertexProperty} {kind : UpdateKind} {f : DefaultField} {i : MixedIndex}
      (type : RelationType) : mutation = .vertexProperty v p kind → d.field? p.key = some f →
      i ∈ c.defaultTargets f.key v.label →
      (kind = .add → d.isRegistered (f.request i).registration = true) →
      Origin c d mutation (c.mixedUpdate (c.context mutation) i f.name type p.value p.metadata)

variable {c : Planner} {d e : DefaultFields} {mutation : Mutation} {x : IndexUpdate}

@[simp] theorem context_kind (c : Planner) (mutation : Mutation) : (c.context mutation).kind = mutation.kind := by
  cases mutation <;> rfl

@[simp] theorem context_element (c : Planner) (mutation : Mutation) :
    (c.context mutation).element = mutation.element := by
  cases mutation <;> rfl

theorem Origin.mono (origin : c.Origin d mutation x) (more : d.Extends e) : c.Origin e mutation x := by
  cases origin with
  | composite touches made => exact .composite touches made
  | declared name type v metadata touches declares => exact .declared name type v metadata touches declares
  | @default v p kind f i type same field target learned =>
    refine .default type same ?_ target fun add => ?_
    · rw [DefaultFields.field?, more.fields]
      exact field
    · exact decide_eq_true (more.registered _ (of_decide_eq_true (learned add)))

/-- An update does what its mutation does, to the same element. -/
theorem Origin.belongs (origin : c.Origin d mutation x) :
    x.kind = mutation.kind ∧ x.element = mutation.element := by
  cases origin with
  | composite _ made =>
    obtain ⟨y, rfl, -, kind, -, -, element, -⟩ := compositeUpdate_ok made
    exact ⟨kind.trans (context_kind c mutation), element.trans (context_element c mutation)⟩
  | declared => exact ⟨context_kind c mutation, context_element c mutation⟩
  | default => exact ⟨context_kind c mutation, context_element c mutation⟩

end Planner

/-- Updates of the mutation come behind those that a plan has come to, where the default fields are those that
were there first. -/
def PlanState.Adds (c : Planner) (mutation : Mutation) (base : DefaultFields) (s s' : PlanState) : Prop :=
  base.Extends s.space.defaults → s.space.defaults.Extends s'.space.defaults ∧
    ∃ us, s'.planned = s.planned ++ us ∧ ∀ x ∈ us, c.Origin s'.space.defaults mutation x

section

variable {c : Planner} {mutation : Mutation} {base : DefaultFields}

theorem PlanState.Adds.nothing {s s' : PlanState} (learned : s.space.defaults.Extends s'.space.defaults)
    (planned : s'.planned = s.planned) : Adds c mutation base s s' :=
  fun _ => ⟨learned, [], by rw [planned, List.append_nil], by simp⟩

variable (c mutation base)

instance : Std.Refl (PlanState.Adds c mutation base) := ⟨fun _ => .nothing (.refl _) rfl⟩

instance : IsTrans PlanState (PlanState.Adds c mutation base) where
  trans _ _ _ first second more := by
    obtain ⟨learned, us, planned, origins⟩ := first more
    obtain ⟨learned', vs, planned', origins'⟩ := second (more.trans learned)
    refine ⟨learned.trans learned', us ++ vs, ?_, fun x there => ?_⟩
    · rw [planned', planned, List.append_assoc]
    · rcases List.mem_append.1 there with old | new
      · exact (origins x old).mono learned'
      · exact origins' x new

end

namespace Planner

open Planning

variable {α β : Type} {c : Planner} {mutation : Mutation} {base : DefaultFields} {key : SchemaId}
variable {v : Vertex} {p : VertexProperty} {kind : UpdateKind}

theorem adds_inSpace (types : Types) {step : Attempt FieldSpace IndexFault α}
    (moves : step.Moves (FieldSpace.Leads types fun _ => True)) :
    (inSpace step).Moves (PlanState.Adds c mutation base) :=
  fun s => .nothing (moves s.space).extends rfl

theorem adds_ofFault_bind {found : Except Fault α} {next : α → Planning β}
    (adds : ∀ a, found = .ok a → (next a).Moves (PlanState.Adds c mutation base)) :
    (ofFault found >>= next).Moves (PlanState.Adds c mutation base) := by
  cases found with
  | ok a => exact adds a rfl
  | error fault => exact .of_still fun _ => rfl

theorem adds_get_bind {next : PlanState → Planning β}
    (adds : ∀ s, base.Extends s.space.defaults → (next s).Moves (PlanState.Adds c mutation base)) :
    (Attempt.get >>= next).Moves (PlanState.Adds c mutation base) :=
  fun s more => adds s more s more

theorem adds_emit {s : PlanState} {x : IndexUpdate}
    (origin : base.Extends s.space.defaults → c.Origin s.space.defaults mutation x) :
    PlanState.Adds c mutation base s (emit x s).2 :=
  fun more => ⟨.refl _, [x], rfl, fun _ there => List.mem_singleton.1 there ▸ origin more⟩

theorem adds_planComposite {i : CompositeIndex} (touches : c.Touches mutation key (.composite i))
    (found : List Match) :
    (c.planComposite (c.context mutation) i found).Moves (PlanState.Adds c mutation base) :=
  .each fun _ _ => adds_ofFault_bind fun _ made _ => adds_emit fun _ => .composite touches made

theorem adds_planField {i : MixedIndex} (touches : c.Touches mutation key (.mixed i)) (v : Value)
    (metadata : Properties) :
    (c.planField (c.context mutation) i key v metadata).Moves (PlanState.Adds c mutation base) := by
  rw [planField]
  cases declared : i.field? key with
  | none => exact .pure ()
  | some f =>
    simp only
    split
    · refine (adds_inSpace c.types (FieldSpace.moves_resolve trivial key)).bind fun name => ?_
      refine adds_ofFault_bind fun type _ s => adds_emit fun _ => ?_
      exact .declared name type v metadata touches (by rw [declared]; rfl)
    · exact .pure ()

theorem adds_planRelation (r : Relation) (kind : UpdateKind) :
    (c.planRelation r kind).Moves (PlanState.Adds c (.relation r kind) base) := by
  rw [planRelation]
  refine adds_ofFault_bind fun type found => ?_
  have context : (⟨.relation r.identity, kind, type.ttl⟩ : UpdateContext) = c.context (.relation r kind) := by
    rw [Planner.context, Types.existing_ok found]
    rfl
  rw [context]
  refine .each fun entry there => .each fun d listed => ?_
  obtain ⟨there, free⟩ := List.mem_filter.1 there
  have touches : c.Touches (.relation r kind) entry.1 d := .relation there (by simpa using free) listed
  cases d with
  | mixed i => exact adds_planField touches entry.2 r.properties
  | composite i =>
    rw [planRelationIndex]
    split
    · exact adds_planComposite touches _
    · exact .pure ()

theorem adds_planVertexIndex {d : IndexDefinition} (listed : d ∈ c.applying p.key .vertex v.label) :
    (c.planVertexIndex (c.vertexContext v kind) v p d).Moves
      (PlanState.Adds c (.vertexProperty v p kind) base) := by
  have touches : c.Touches (.vertexProperty v p kind) p.key d := .vertexProperty listed
  cases d with
  | mixed i => exact adds_planField touches p.value p.metadata
  | composite i =>
    rw [planVertexIndex]
    split
    · exact adds_planComposite touches _
    · exact .pure ()

/-- A default field is written to once the index has learned of it. -/
theorem adds_planDefaultIndex (registrar : Registrar) {f : DefaultField} (type : RelationType) {i : MixedIndex}
    (field : base.field? p.key = some f) (target : i ∈ c.defaultTargets f.key v.label) :
    (c.planDefaultIndex (c.vertexContext v kind) registrar f type p i).Moves
      (PlanState.Adds c (.vertexProperty v p kind) base) := by
  have field' {d : DefaultFields} (more : base.Extends d) : d.field? p.key = some f := by
    rw [DefaultFields.field?, more.fields]
    exact field
  rw [planDefaultIndex]
  cases kind with
  | delete => exact fun s => adds_emit fun more => .default type rfl (field' more) target (by simp)
  | add =>
    show Attempt.Moves _ (inSpace (FieldSpace.ensureRegistered i f registrar) >>= fun _ => emit _)
    refine (adds_inSpace c.types (FieldSpace.moves_ensureRegistered trivial f registrar)).bind_ok ?_
    intro s new s' run
    have result : (FieldSpace.ensureRegistered i f registrar s.space).1 = .ok new := congrArg Prod.fst run
    have space : (FieldSpace.ensureRegistered i f registrar s.space).2 = s'.space :=
      congrArg (fun after => after.2.space) run
    have learned := FieldSpace.ensureRegistered_ok (Prod.ext result space)
    exact adds_emit fun more => .default type rfl (field' more) target fun _ => learned

theorem adds_planDefault {f : DefaultField} (field : base.field? p.key = some f) :
    (c.planDefault (c.vertexContext v kind) v p f).Moves
      (PlanState.Adds c (.vertexProperty v p kind) base) := by
  rw [planDefault]
  cases c.registrar with
  | none => exact .pure ()
  | some registrar =>
    exact adds_ofFault_bind fun type _ => .each fun i target => adds_planDefaultIndex registrar type field target

theorem adds_planVertexProperty (v : Vertex) (p : VertexProperty) (kind : UpdateKind) :
    (c.planVertexProperty v p kind).Moves (PlanState.Adds c (.vertexProperty v p kind) base) := by
  have declared : (Attempt.each (c.planVertexIndex (c.vertexContext v kind) v p)
      (c.applying p.key .vertex v.label)).Moves (PlanState.Adds c (.vertexProperty v p kind) base) :=
    .each fun d listed => adds_planVertexIndex listed
  -- the registry is looked up behind the declared fields, which leave its fields as they were first
  refine declared.bind fun _ => adds_get_bind fun s more => ?_
  have fields : s.space.defaults.field? p.key = base.field? p.key := congrArg (·.get? p.key) more.fields
  rw [fields]
  cases known : base.field? p.key with
  | none => exact .pure ()
  | some f => exact adds_planDefault known

theorem adds_planMutation (mutation : Mutation) :
    (c.planMutation mutation).Moves (PlanState.Adds c mutation base) := by
  cases mutation with
  | relation r kind => exact adds_planRelation r kind
  | vertexProperty v p kind => exact adds_planVertexProperty v p kind

/-- Whatever comes of a plan, all that it has come to is for its mutation. -/
theorem origin_of_planned (mutation : Mutation) (space : FieldSpace) :
    ∀ x ∈ (c.planMutation mutation ⟨space, []⟩).2.planned,
      c.Origin (c.planMutation mutation ⟨space, []⟩).2.space.defaults mutation x := by
  have adds : (c.planMutation mutation).Moves (PlanState.Adds c mutation space.defaults) :=
    adds_planMutation mutation
  obtain ⟨-, us, planned, origins⟩ := adds ⟨space, []⟩ (.refl _)
  rw [planned]
  exact origins

end Planner

end GraphStore
