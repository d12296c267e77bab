import GraphStore.Proofs.Index.FieldAgreement
import GraphStore.Proofs.Index.Origins

/-!
Which default fields the backends were asked to take on, and when. The calls of registrars tell the whole history:
a field counts as registered for an index just if a call for it went well, which happens once at most. A plan
asks on behalf of a value that comes, for the indexes that apply and do not declare the key; a refusal ends it,
and what was refused is asked for again by the next plan that needs it.
-/
namespace GraphStore

namespace FieldSpace

variable {i : MixedIndex} {f : DefaultField} {s s' : FieldSpace} {answer : Except IndexFault Bool}

/-- What the calls of registrars that went well were for, in order. -/
def learned (s : FieldSpace) : List Registration :=
  (s.calls.filter (·.succeeded)).map (·.request.registration)

/-- The registry holds what registrars have taken on, and they were not asked for any of it again. -/
structure Accounted (s : FieldSpace) : Prop where
  once : s.learned.Nodup
  registered : ∀ r, s.defaults.isRegistered r = true ↔ r ∈ s.learned

theorem Accounted.not_mem (accounted : s.Accounted) {r : Registration}
    (free : s.defaults.isRegistered r = false) : r ∉ s.learned := by
  rw [← accounted.registered, free]
  exact Bool.false_ne_true

theorem accounted_new {defaults : DefaultFields} (fresh : defaults.registered = []) :
    (new defaults).Accounted :=
  ⟨.nil, fun r => by simp [new, learned, DefaultFields.isRegistered, fresh]⟩

theorem Accounted.of_same (accounted : s.Accounted) (defaults : s'.defaults = s.defaults)
    (learned : s'.learned = s.learned) : s'.Accounted :=
  ⟨learned ▸ accounted.once, fun r => by rw [defaults, learned, accounted.registered]⟩

theorem Accounted.learn (accounted : s.Accounted) (learns : Learns i f s answer s') : s'.Accounted := by
  cases learns with
  | known => exact accounted
  | refused cause free =>
    exact accounted.of_same rfl (by simp [learned, RegistrarCall.succeeded])
  | new free =>
    have more : learned { s with
        calls := s.calls ++ [⟨f.request i, .ok ()⟩]
        defaults := s.defaults.register (f.request i).registration } =
        s.learned ++ [(f.request i).registration] := by
      simp [learned, RegistrarCall.succeeded]
    have absent := accounted.not_mem free
    refine ⟨?_, fun r => ?_⟩
    · rw [more, List.nodup_append]
      simpa using ⟨accounted.once, fun r there same => absent (same ▸ there)⟩
    · rw [more, List.mem_append, ← accounted.registered, List.mem_singleton]
      simp [DefaultFields.isRegistered, DefaultFields.register, or_comm]

/-- What is registered after some calls and was not before was asked for among them. -/
theorem Accounted.answered {calls : List RegistrarCall} {r : Registration}
    (before : s.Accounted) (after : s'.Accounted) (recorded : s'.calls = s.calls ++ calls)
    (free : s.defaults.isRegistered r = false) (known : s'.defaults.isRegistered r = true) :
    ∃ x ∈ calls, x.request.registration = r ∧ x.answer = .ok () := by
  have there := (after.registered r).1 known
  rw [learned, recorded, List.filter_append, List.map_append, List.mem_append] at there
  obtain ⟨x, member, same⟩ := List.mem_map.1 (there.resolve_left (before.not_mem free))
  obtain ⟨member, went⟩ := List.mem_filter.1 member
  refine ⟨x, member, same, ?_⟩
  rw [RegistrarCall.succeeded] at went
  split at went
  · next answer => exact answer
  · cases went

end FieldSpace

namespace FieldTraffic

variable {types : Types} {indexes : MixedIndex → Prop} {t t' : FieldTraffic}

/-- Only registrations call registrars, and these keep the account whatever is done between their halves. -/
theorem Step.accounted (step : Step types indexes t t') (accounted : t.space.Accounted) :
    t'.space.Accounted := by
  cases step with
  | learn _ _ run => exact accounted.learn (FieldSpace.learns run)
  | refuse _ _ run => exact accounted.learn (FieldSpace.learns run)
  | _ => exact accounted.of_same rfl rfl

theorem Steps.accounted (run : Steps types indexes t t') (accounted : t.space.Accounted) :
    t'.space.Accounted := by
  induction run with
  | refl => exact accounted
  | tail _ step ih => exact step.accounted ih

end FieldTraffic

theorem FieldCalls.accounted {catalog : Catalog} {types : Types} {defaults : DefaultFields} {s : FieldSpace}
    (reached : catalog.Reachable) (keyed : defaults.Keyed) (fresh : defaults.registered = [])
    (calls : FieldCalls catalog types (.new defaults) s) : s.Accounted :=
  (calls.leads reached keyed [] []).accounted (FieldSpace.accounted_new fresh)

namespace FieldSpace

/-- Calls that were put to registrars on the way from one space to another, for requests of a kind and for fields
that were not registered. One that was refused is what the way ended with. -/
structure Asked (allowed : FieldRequest → Prop) (s s' : FieldSpace) (fault : Option IndexFault)
    (calls : List RegistrarCall) : Prop where
  learned : s.defaults.Extends s'.defaults
  recorded : s'.calls = s.calls ++ calls
  allowed : ∀ x ∈ calls, allowed x.request
  unknown : ∀ x ∈ calls, s.defaults.isRegistered x.request.registration = false
  refused : ∀ x ∈ calls, ∀ cause, x.answer = .error cause →
    fault = some (.backend cause) ∧ s'.defaults.isRegistered x.request.registration = false

variable {allowed : FieldRequest → Prop} {s m s' : FieldSpace} {fault : Option IndexFault}
variable {calls more : List RegistrarCall} {i : MixedIndex} {f : DefaultField}

theorem Asked.nothing (defaults : s'.defaults = s.defaults) (recorded : s'.calls = s.calls) :
    Asked allowed s s' fault [] :=
  ⟨by rw [defaults]; exact .refl _, by rw [recorded, List.append_nil], by simp, by simp, by simp⟩

theorem Asked.trans (first : Asked allowed s m none calls) (second : Asked allowed m s' fault more) :
    Asked allowed s s' fault (calls ++ more) where
  learned := first.learned.trans second.learned
  recorded := by rw [second.recorded, first.recorded, List.append_assoc]
  allowed x there := (List.mem_append.1 there).elim (first.allowed x) (second.allowed x)
  unknown x there := by
    rcases List.mem_append.1 there with old | new
    · exact first.unknown x old
    · have free := second.unknown x new
      simp only [DefaultFields.isRegistered, decide_eq_false_iff_not] at free ⊢
      exact fun known => free (first.learned.registered _ known)
  refused x there cause answer := by
    rcases List.mem_append.1 there with old | new
    · cases (first.refused x old cause answer).1
    · exact second.refused x new cause answer

theorem asked_ensureRegistered (registrar : Registrar) (mine : allowed (f.request i)) (s : FieldSpace) :
    ∃ calls, Asked allowed s (ensureRegistered i f registrar s).2
      (faultOf (ensureRegistered i f registrar s).1) calls := by
  rw [ensureRegistered_run]
  cases run : learn i f registrar s with
  | mk answer asked =>
    cases learns run with
    | known known => exact ⟨[], .nothing rfl rfl⟩
    | new free =>
      refine ⟨[⟨f.request i, .ok ()⟩], DefaultFields.extends_register _ _, rfl, ?_, ?_, ?_⟩
      · simpa using mine
      · simpa using free
      · simp
    | refused cause free =>
      refine ⟨[⟨f.request i, .error cause⟩], .refl _, rfl, ?_, ?_, ?_⟩
      · simpa using mine
      · simpa using free
      · simpa [faultOf] using free

/-- A lookup asks nothing. -/
theorem still_names (types : Types) (i : MixedIndex) (s : FieldSpace) :
    (names types i s).2.defaults = s.defaults ∧ (names types i s).2.calls = s.calls := by
  rw [names, namesMeanwhile]
  cases s.cache.start i with
  | inl names => exact ⟨rfl, rfl⟩
  | inr l =>
    simp only [finish, id, ite_self]
    cases FieldNames.ofIndex types s.defaults l.index <;> exact ⟨rfl, rfl⟩

theorem still_resolve (types : Types) (i : MixedIndex) (key : SchemaId) (s : FieldSpace) :
    (resolve types i key s).2.defaults = s.defaults ∧ (resolve types i key s).2.calls = s.calls := by
  have still := still_names types i s
  rw [resolve]
  cases run : names types i s with
  | mk result s' =>
    rw [run] at still
    cases result with
    | error fault =>
      rw [Attempt.bind_run_error run]
      exact still
    | ok names =>
      rw [Attempt.bind_run_ok run]
      cases names.get? key <;> exact still

end FieldSpace

/-- The step puts only such requests to registrars, where the default fields are those that were there first. -/
def Planning.Asks (base : DefaultFields) (allowed : FieldRequest → Prop) {α : Type} (step : Planning α) : Prop :=
  ∀ s, base.Extends s.space.defaults →
    ∃ calls, FieldSpace.Asked allowed s.space (step s).2.space (faultOf (step s).1) calls

namespace Planning

variable {α β : Type} {base : DefaultFields} {allowed : FieldRequest → Prop} {step : Planning α}

theorem Asks.learned (asks : Asks base allowed step) {s s' : PlanState} {result : Except IndexFault α}
    (more : base.Extends s.space.defaults) (run : step s = (result, s')) :
    s.space.defaults.Extends s'.space.defaults := by
  obtain ⟨_, asked⟩ := asks s more
  rw [run] at asked
  exact asked.learned

theorem Asks.nothing (defaults : ∀ s, (step s).2.space.defaults = s.space.defaults)
    (recorded : ∀ s, (step s).2.space.calls = s.space.calls) : Asks base allowed step :=
  fun s _ => ⟨[], .nothing (defaults s) (recorded s)⟩

theorem Asks.bind {next : α → Planning β} (first : Asks base allowed step)
    (second : ∀ a, Asks base allowed (next a)) : Asks base allowed (step >>= next) := by
  intro s more
  obtain ⟨calls, asked⟩ := first s more
  cases run : step s with
  | mk result s' =>
    rw [run] at asked
    cases result with
    | error fault =>
      rw [Attempt.bind_run_error run]
      exact ⟨calls, asked⟩
    | ok a =>
      obtain ⟨later, asked'⟩ := second a s' (more.trans asked.learned)
      rw [Attempt.bind_run_ok run]
      exact ⟨calls ++ later, asked.trans asked'⟩

theorem Asks.composes : Attempt.Composes fun {α} (step : Planning α) => Asks base allowed step :=
  ⟨fun _ => .nothing (fun _ => rfl) fun _ => rfl, .bind⟩

theorem Asks.get_bind {next : PlanState → Planning β}
    (asks : ∀ s, base.Extends s.space.defaults → Asks base allowed (next s)) :
    Asks base allowed (Attempt.get >>= next) :=
  fun s more => asks s more s more

theorem asks_emit (u : IndexUpdate) : Asks base allowed (emit u) := .nothing (fun _ => rfl) fun _ => rfl

end Planning

namespace Planner

open Planning

variable {c : Planner} {base : DefaultFields} {allowed : FieldRequest → Prop} {u : UpdateContext}
variable {v : Vertex} {p : VertexProperty} {kind : UpdateKind}

theorem asks_planField (i : MixedIndex) (key : SchemaId) (value : Value) (metadata : Properties) :
    Asks base allowed (c.planField u i key value metadata) := by
  have looks : Asks base allowed (inSpace (FieldSpace.resolve c.types i key)) :=
    .nothing (fun s => (FieldSpace.still_resolve c.types i key s.space).1)
      fun s => (FieldSpace.still_resolve c.types i key s.space).2
  rw [planField]
  cases i.field? key with
  | none => exact Asks.composes.pure ()
  | some f =>
    simp only
    split
    · exact looks.bind fun name => (Asks.composes.lift _).bind fun type => asks_emit _
    · exact Asks.composes.pure ()

theorem asks_planVertexIndex (d : IndexDefinition) : Asks base allowed (c.planVertexIndex u v p d) := by
  cases d with
  | mixed i => exact asks_planField i p.key p.value p.metadata
  | composite i =>
    rw [planVertexIndex]
    split
    · exact Asks.composes.each fun m _ => (Asks.composes.lift _).bind fun x => asks_emit x
    · exact Asks.composes.pure ()

/-- An index is asked to take on a field only for a value that comes. -/
theorem asks_planDefaultIndex (registrar : Registrar) (f : DefaultField) (type : RelationType) (i : MixedIndex)
    (mine : u.kind = .add → allowed (f.request i)) :
    Asks base allowed (c.planDefaultIndex u registrar f type p i) := by
  rw [planDefaultIndex]
  cases kind : u.kind with
  | delete => exact asks_emit _
  | add =>
    have registers : Asks base allowed (inSpace (FieldSpace.ensureRegistered i f registrar)) :=
      fun s _ => FieldSpace.asked_ensureRegistered registrar (mine kind) s.space
    exact registers.bind fun _ => asks_emit _

/-- The default field of a vertex property goes to the index, which applies to the vertex and does not declare
the key. -/
structure Routes (c : Planner) (d : DefaultFields) (v : Vertex) (p : VertexProperty) (f : DefaultField)
    (i : MixedIndex) : Prop where
  field : d.field? p.key = some f
  known : c.catalog.IsMixed i
  undeclared : i.field? p.key = none
  applies : i.appliesTo .vertex v.label = true

theorem mem_defaultTargets_iff (reached : c.catalog.Reachable) (keyed : base.Keyed) {f : DefaultField}
    (field : base.field? p.key = some f) {i : MixedIndex} :
    i ∈ c.defaultTargets f.key v.label ↔ c.Routes base v p f i := by
  rw [defaultTargets, List.mem_filter, Catalog.mem_mixedIndexes reached.sound, keyed p.key f field,
    Bool.and_eq_true_iff, Option.isNone_iff_eq_none]
  exact ⟨fun ⟨known, undeclared, applies⟩ => ⟨field, known, undeclared, applies⟩,
    fun routes => ⟨routes.known, routes.undeclared, routes.applies⟩⟩

theorem asks_planVertexProperty (reached : c.catalog.Reachable) (keyed : base.Keyed) (v : Vertex)
    (p : VertexProperty) (kind : UpdateKind) :
    Asks base (fun r => kind = .add ∧ ∃ f i, c.Routes base v p f i ∧ r = f.request i)
      (c.planVertexProperty v p kind) := by
  have declared : Asks base (fun r => kind = .add ∧ ∃ f i, c.Routes base v p f i ∧ r = f.request i)
      (Attempt.each (c.planVertexIndex (c.vertexContext v kind) v p) (c.applying p.key .vertex v.label)) :=
    Asks.composes.each fun d _ => asks_planVertexIndex d
  refine declared.bind fun _ => .get_bind fun s more => ?_
  have fields : s.space.defaults.field? p.key = base.field? p.key := congrArg (·.get? p.key) more.fields
  rw [fields]
  cases known : base.field? p.key with
  | none => exact Asks.composes.pure ()
  | some f =>
    simp only [planDefault]
    cases c.registrar with
    | none => exact Asks.composes.pure ()
    | some registrar =>
      refine (Asks.composes.lift _).bind fun type => Asks.composes.each fun i target => ?_
      exact asks_planDefaultIndex registrar f type i fun add =>
        ⟨add, f, i, (mem_defaultTargets_iff reached keyed known).1 target, rfl⟩

end Planner

/-- No registration goes on the way. -/
def PlanState.Knows (s s' : PlanState) : Prop := s.space.defaults.Extends s'.space.defaults

instance : Std.Refl PlanState.Knows := ⟨fun _ => .refl _⟩

instance : IsTrans PlanState PlanState.Knows := ⟨fun _ _ _ => .trans⟩

namespace Planner

open Planning

variable {c : Planner} {base defaults : DefaultFields} {v : Vertex} {p : VertexProperty} {kind : UpdateKind}
variable {f : DefaultField} {i : MixedIndex}

/-- When the indexes that a default field goes to have their updates, they have learned of it. -/
theorem registered_of_planDefault {registrar : Registrar} {type : RelationType} {l : List MixedIndex}
    {u : UpdateContext} (add : u.kind = .add) {s s' : PlanState}
    (run : Attempt.each (c.planDefaultIndex u registrar f type p) l s = (.ok (), s')) :
    ∀ i ∈ l, s'.space.defaults.isRegistered (f.request i).registration = true := by
  intro i there
  have moves : ∀ j ∈ l, (c.planDefaultIndex u registrar f type p j).Moves PlanState.Knows := by
    intro j _ s
    have asks : Asks s.space.defaults (fun _ => True) (c.planDefaultIndex u registrar f type p j) :=
      asks_planDefaultIndex registrar f type j fun _ => trivial
    exact asks.learned (.refl _) rfl
  obtain ⟨m, m', -, one, on⟩ := Attempt.Moves.each_ok moves run i there
  rw [planDefaultIndex, add] at one
  obtain ⟨new, n, learned, emitted⟩ := Attempt.bind_run_ok_iff.1 one
  obtain ⟨-, rfl⟩ := Prod.mk.inj emitted
  have result : (FieldSpace.ensureRegistered i f registrar m.space).1 = .ok new := congrArg Prod.fst learned
  have space : (FieldSpace.ensureRegistered i f registrar m.space).2 = n.space :=
    congrArg (fun after => after.2.space) learned
  have known := FieldSpace.ensureRegistered_ok (Prod.ext result space)
  exact decide_eq_true (on.registered _ (of_decide_eq_true known))

/-- A plan for a value that comes ends well only with the default field registered wherever it goes. -/
theorem registered_of_planned (reached : c.catalog.Reachable) (keyed : base.Keyed) {registrar : Registrar}
    (backed : c.registrar = some registrar) (routes : c.Routes base v p f i) {s s' : PlanState}
    (more : base.Extends s.space.defaults) (run : c.planVertexProperty v p .add s = (.ok (), s')) :
    s'.space.defaults.isRegistered (f.request i).registration = true := by
  obtain ⟨_, m, declared, run⟩ := Attempt.bind_run_ok_iff.1 run
  have knows : s.space.defaults.Extends m.space.defaults := by
    have asks : Asks base (fun _ => True) (Attempt.each (c.planVertexIndex (c.vertexContext v .add) v p)
        (c.applying p.key .vertex v.label)) := Asks.composes.each fun d _ => asks_planVertexIndex d
    exact asks.learned more declared
  have field : m.space.defaults.field? p.key = some f := by
    rw [DefaultFields.field?, (more.trans knows).fields]
    exact routes.field
  obtain ⟨_, _, looked, run⟩ := Attempt.bind_run_ok_iff.1 run
  obtain ⟨same, rfl⟩ := Prod.mk.inj looked
  obtain rfl := Except.ok.inj same
  rw [field] at run
  simp only [planDefault, backed] at run
  obtain ⟨type, m', found, run⟩ := Attempt.bind_run_ok_iff.1 run
  exact registered_of_planDefault rfl run i ((mem_defaultTargets_iff reached keyed routes.field).2 routes)

theorem plan_run (mutation : Mutation) (s : FieldSpace) : c.plan mutation s =
    ((c.planMutation mutation ⟨s, []⟩).1.map fun _ =>
      UpdateSet.empty.insertAll (c.planMutation mutation ⟨s, []⟩).2.planned,
      (c.planMutation mutation ⟨s, []⟩).2.space) := by
  simp only [plan, planInto]
  cases c.planMutation mutation ⟨s, []⟩ with
  | mk result after => cases result <;> rfl

/-- The update goes to a field that its index declares, or to the default field, which the index then does not
declare and of which it has learned if the value comes. -/
def Delivers (c : Planner) (d base : DefaultFields) (v : Vertex) (p : VertexProperty) (u : MixedUpdate) : Prop :=
  ∃ i, c.catalog.IsMixed i ∧ i.id = u.index ∧ i.store = u.store ∧ i.appliesTo .vertex v.label = true ∧
    ((i.field? p.key).isSome = true ∨ ∃ f, c.Routes base v p f i ∧ u.field = f.name ∧
      (u.kind = .add → d.isRegistered (f.request i).registration = true))

theorem Delivers.of_bare {d : DefaultFields} {x u : MixedUpdate} (delivers : c.Delivers d base v p x)
    (same : x.bare = u.bare) : c.Delivers d base v p u := by
  obtain ⟨index, store, -, field, -, kind, -⟩ := MixedUpdate.mk.inj same
  rw [Delivers, index, store, field, kind] at delivers
  exact delivers

theorem Origin.delivers (reached : c.catalog.Reachable) (keyed : base.Keyed) {d : DefaultFields}
    (more : base.Extends d) {x : IndexUpdate} (origin : c.Origin d (.vertexProperty v p kind) x)
    {u : MixedUpdate} (same : x = .mixed u) : c.Delivers d base v p u := by
  cases origin with
  | composite _ made =>
    obtain ⟨y, rfl, -⟩ := compositeUpdate_ok made
    cases same
  | @declared i key name type value metadata touches declares =>
    obtain rfl := IndexUpdate.mixed.inj same
    cases touches with
    | vertexProperty listed =>
      obtain ⟨listed, applies⟩ := List.mem_filter.1 listed
      exact ⟨i, ((Catalog.mem_indexesForKey reached.sound).1 listed).1, rfl, rfl, applies, .inl declares⟩
  | @default v' p' kind' f i type here field target learned =>
    obtain ⟨rfl, rfl, rfl⟩ := Mutation.vertexProperty.inj here
    obtain rfl := IndexUpdate.mixed.inj same
    have field' : base.field? p.key = some f := by
      rw [DefaultFields.field?, ← more.fields]
      exact field
    have routes := (mem_defaultTargets_iff reached keyed field').1 target
    exact ⟨i, routes.known, rfl, rfl, routes.applies, .inr ⟨f, routes, rfl, learned⟩⟩

theorem Routes.unique (reached : c.catalog.Reachable) {g : DefaultField} {j : MixedIndex}
    (routes : c.Routes base v p f i) (other : c.Routes base v p g j)
    (same : (g.request j).registration = (f.request i).registration) : g.request j = f.request i := by
  obtain rfl : g = f := Option.some.inj (other.field.symm.trans routes.field)
  obtain ⟨store, name, -⟩ := Registration.mk.inj same
  rw [reached.apart j i other.known routes.known (.inr ⟨store, name⟩)]

end Planner

namespace Planner

variable {c : Planner} {defaults : DefaultFields} {v : Vertex} {p : VertexProperty} {kind : UpdateKind}
variable {s s' : FieldSpace} {result : Except IndexFault UpdateSet}

/-- After any calls and one more plan, a default field is registered for an index just if a call of a registrar
for it went well, and no two calls for it did. The plan asks only for a value that comes, and only for what is
not registered and goes to an index that applies and does not declare the key; a refusal is the plan's fault, and
what was refused is not registered. A plan that succeeds sends the value to declared fields and, with a registrar,
to default fields that are registered by then; what was not registered before, it has asked for anew. -/
theorem plan_registers (reached : c.catalog.Reachable) (keyed : defaults.Keyed) (fresh : defaults.registered = [])
    (before : FieldCalls c.catalog c.types (.new defaults) s)
    (planned : c.plan (.vertexProperty v p kind) s = (result, s')) :
    s'.learned.Nodup ∧ (∀ r, s'.defaults.isRegistered r = true ↔ r ∈ s'.learned) ∧
      ∃ calls, s'.calls = s.calls ++ calls ∧
        (∀ x ∈ calls, kind = .add ∧ s.defaults.isRegistered x.request.registration = false ∧
          ∃ f i, c.Routes defaults v p f i ∧ x.request = f.request i) ∧
        (∀ x ∈ calls, ∀ cause, x.answer = .error cause →
          result = .error (.backend cause) ∧ s'.defaults.isRegistered x.request.registration = false) ∧
        ∀ set, result = .ok set → (∀ u ∈ set.mixeds, c.Delivers s'.defaults defaults v p u) ∧
          (kind = .add → c.registrar.isSome = true → ∀ f i, c.Routes defaults v p f i →
            s'.defaults.isRegistered (f.request i).registration = true ∧
              (s.defaults.isRegistered (f.request i).registration = false →
                ∃ x ∈ calls, x.request = f.request i ∧ x.answer = .ok ())) := by
  have after : FieldCalls c.catalog c.types (.new defaults) s' := by
    rw [← show (c.plan (.vertexProperty v p kind) s).2 = s' by rw [planned]]
    exact before.tail (.plan (.vertexProperty v p kind) rfl rfl)
  have held := before.accounted reached keyed fresh
  have holds := after.accounted reached keyed fresh
  have more : defaults.Extends s.defaults := (before.leads reached keyed).extends
  have more' := (after.leads reached keyed).extends
  obtain ⟨calls, asked⟩ := asks_planVertexProperty reached keyed v p kind ⟨s, []⟩ more
  rw [plan_run, Prod.mk.injEq] at planned
  obtain ⟨rfl, rfl⟩ := planned
  refine ⟨holds.once, holds.registered, calls, asked.recorded, fun x there => ?_,
    fun x there cause answer => ?_, ?_⟩
  · obtain ⟨add, f, i, routes, same⟩ := asked.allowed x there
    exact ⟨add, asked.unknown x there, f, i, routes, same⟩
  · obtain ⟨fault, free⟩ := asked.refused x there cause answer
    refine ⟨?_, free⟩
    rw [← faultOf_eq_some_iff, faultOf_map]
    exact fault
  · -- what a plan without a fault hands out has its origins in the state that the plan ended in
    intro set done
    obtain ⟨_, ended, rfl⟩ := map_ok_iff.1 done
    refine ⟨fun u member => ?_, fun add backed f i routes => ?_⟩
    · obtain ⟨x, came, bare⟩ := UpdateSet.mixed_source member
      have origin := origin_of_planned (.vertexProperty v p kind) s (.mixed x) (mem_mixedsOf.1 came)
      exact (origin.delivers reached keyed more' rfl).of_bare bare
    · subst add
      obtain ⟨registrar, backed⟩ := Option.isSome_iff_exists.1 backed
      have run : c.planVertexProperty v p .add ⟨s, []⟩ =
          (.ok (), (c.planMutation (.vertexProperty v p .add) ⟨s, []⟩).2) := Prod.ext ended rfl
      have known := registered_of_planned reached keyed backed routes more run
      refine ⟨known, fun free => ?_⟩
      obtain ⟨x, there, same, answer⟩ := held.answered holds asked.recorded free known
      obtain ⟨-, g, j, other, request⟩ := asked.allowed x there
      rw [request] at same
      exact ⟨x, there, request.trans (routes.unique reached other same), answer⟩

open FieldTraffic (notesField)

def archive : MixedIndex := { searchedSince with id := .ofNat 22, name := "archive" }

/-- Two search indexes over years, and notes of vertices that neither declares. The registrar is busy at its
second call. -/
def busyPlanner : Planner :=
  { searchPlanner with
    catalog := ⟨.ofList [(searchedSince.id, .mixed searchedSince), (archive.id, .mixed archive)],
      [(archive.name, archive.id), (searchedSince.name, searchedSince.id)],
      .ofList [(Schema.since.id, [searchedSince.id, archive.id])]⟩
    types := .overlay (.ofList [(notesField.key,
      { RelationType.propertyKey notesField.key "noted" .string with multiplicity := .multi })])
      Schema.acquaintance.lookup
    registrar := some fun calls _ => if calls.length = 1 then .error ⟨true, "busy"⟩ else .ok () }

def noteFields : DefaultFields := .insert .empty notesField

def ann : Vertex := ⟨"ann", none, []⟩

def tall : VertexProperty := ⟨"n", notesField.key, .string "tall", .empty⟩

/-- The first plan registers the notes with one index and is refused by the other; the second plan asks that one
again. -/
theorem plan_registers_busy : ∃ set s s',
    busyPlanner.plan (.vertexProperty ann tall .add) (.new noteFields) =
      (.error (.backend ⟨true, "busy"⟩), s) ∧ s.learned = [⟨"es", "search", "notes"⟩] ∧
    busyPlanner.plan (.vertexProperty ann tall .add) s = (.ok set, s') ∧
    s'.learned = [⟨"es", "search", "notes"⟩, ⟨"es", "archive", "notes"⟩] ∧ s'.learned.Nodup ∧
    (∀ r, s'.defaults.isRegistered r = true ↔ r ∈ s'.learned) ∧
    (∀ u ∈ set.mixeds, busyPlanner.Delivers s'.defaults noteFields ann tall u) ∧
    ∃ calls, s'.calls = s.calls ++ calls ∧
      ∃ x ∈ calls, x.request = notesField.request archive ∧ x.answer = .ok () := by
  have first : Catalog.Reachable _ := Catalog.Reachable.empty.create (d := .mixed searchedSince) rfl
  have reached : busyPlanner.catalog.Reachable := first.create (d := .mixed archive) rfl
  have keyed : noteFields.Keyed := DefaultFields.keyed_empty.insert notesField
  obtain ⟨set, s, s', refused, half, planned, both, free⟩ : ∃ set s s',
      busyPlanner.plan (.vertexProperty ann tall .add) (.new noteFields) =
        (.error (.backend ⟨true, "busy"⟩), s) ∧ s.learned = [⟨"es", "search", "notes"⟩] ∧
      busyPlanner.plan (.vertexProperty ann tall .add) s = (.ok set, s') ∧
      s'.learned = [⟨"es", "search", "notes"⟩, ⟨"es", "archive", "notes"⟩] ∧
      s.defaults.isRegistered (notesField.request archive).registration = false :=
    ⟨_, _, _, rfl, rfl, rfl, rfl, rfl⟩
  have before : FieldCalls busyPlanner.catalog busyPlanner.types (.new noteFields) s := by
    rw [← show (busyPlanner.plan _ _).2 = s by rw [refused]]
    exact .single (.plan (.vertexProperty ann tall .add) rfl rfl)
  obtain ⟨once, registered, calls, recorded, -, -, done⟩ := plan_registers reached keyed rfl before planned
  obtain ⟨delivers, asks⟩ := done set rfl
  exact ⟨set, s, s', refused, half, planned, both, once, registered, delivers, calls, recorded,
    (asks rfl rfl notesField archive ⟨rfl, rfl, rfl, rfl⟩).2 free⟩

end Planner

end GraphStore
