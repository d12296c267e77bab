import GraphStore.Proofs.Index.FieldWrites
import GraphStore.Proofs.Search.Meaning
import GraphStore.Proofs.Search.References

/-!
Plans and queries that share a cache and default fields. None of them does more to these than steps of a cache
in use, so a field that a plan has written to under some name is the one that queries address from then on,
whatever else is planned, asked, expired or invalidated.
-/
namespace GraphStore

namespace Translator

variable {t : Translator} {indexes : MixedIndex → Prop} {i : MixedIndex}

theorem moves_field (one : indexes i) (key : SchemaId) :
    (t.field i key).Moves (FieldSpace.Leads t.types indexes) := by
  refine (FieldSpace.moves_resolve one key).bind fun name => ?_
  refine (Attempt.Moves.of_still fun _ => rfl).bind fun s => ?_
  exact (Attempt.Moves.of_still fun _ => rfl).bind fun mapping => .pure _

theorem moves_request (one : indexes i) (condition : Condition) (order : List OrderBy) :
    (t.request i condition order).Moves (FieldSpace.Leads t.types indexes) :=
  request_composed Attempt.Moves.composes (moves_field one) condition order

theorem moves_fieldOfName (one : indexes i) (name : String) :
    (t.fieldOfName i name).Moves (FieldSpace.Leads t.types indexes) := by
  intro s
  rw [fieldOfName]
  split
  · exact Std.Refl.refl s
  · next type _ =>
    have leads : FieldSpace.Leads t.types indexes s (FieldSpace.resolve t.types i type.id s).2 :=
      FieldSpace.moves_resolve one type.id s
    split <;> next looked => rwa [looked] at leads

theorem moves_fill (one : indexes i) (style : ReferenceStyle) (query : String)
    (pieces : List Reference.Piece) :
    (RawQuery.fill style query (t.fieldOfName i) pieces).Moves (FieldSpace.Leads t.types indexes) :=
  RawQuery.fill_composed Attempt.Moves.composes (moves_fieldOfName one) pieces

theorem moves_raw (one : indexes i) (query : String) (fallback : Option String) :
    (t.raw i query fallback).Moves (FieldSpace.Leads t.types indexes) := by
  refine Attempt.Moves.bind ?_ fun _ => .pure _
  rw [RawQuery.substitute]
  split
  · exact .pure _
  · exact (moves_fill one _ query _).bind fun _ => .pure _

end Translator

/-- A call that goes to the shared fields, for one catalog and one schema. -/
inductive FieldCall (catalog : Catalog) (types : Types) : FieldSpace → FieldSpace → Prop where
  | plan {s : FieldSpace} {c : Planner} (mutation : Mutation) : c.catalog = catalog → c.types = types →
      FieldCall catalog types s (c.plan mutation s).2
  | planInto {s : FieldSpace} {c : Planner} (mutation : Mutation) (set : UpdateSet) :
      c.catalog = catalog → c.types = types →
      FieldCall catalog types s (c.planInto mutation (s, set)).2.1
  | request {s : FieldSpace} {t : Translator} {i : MixedIndex} (condition : Condition)
      (order : List OrderBy) : t.types = types → catalog.IsMixed i →
      FieldCall catalog types s (t.request i condition order s).2
  | raw {s : FieldSpace} {t : Translator} {i : MixedIndex} (query : String) (fallback : Option String) :
      t.types = types → catalog.IsMixed i → FieldCall catalog types s (t.raw i query fallback s).2
  | resolve {s : FieldSpace} {i : MixedIndex} (key : SchemaId) : catalog.IsMixed i →
      FieldCall catalog types s (FieldSpace.resolve types i key s).2
  | expire {s : FieldSpace} (id : SchemaId) : FieldCall catalog types s (s.expire id).2
  | invalidate {s : FieldSpace} (store : String) : FieldCall catalog types s (s.invalidate store).2

/-- Any number of calls, whether they succeed or not. -/
abbrev FieldCalls (catalog : Catalog) (types : Types) : FieldSpace → FieldSpace → Prop :=
  Relation.ReflTransGen (FieldCall catalog types)

/-- The schema has the key of every field that is named after it. -/
def Planner.NamesFields (c : Planner) : Prop :=
  ∀ i, c.catalog.IsMixed i → i.source = .managed → ∀ f ∈ i.fields, f.mappedName = none →
    ∃ t, c.types.type? f.key = some t

namespace Planner

variable {c : Planner}

theorem plan_space (mutation : Mutation) (s : FieldSpace) :
    (c.plan mutation s).2 = (c.planMutation mutation ⟨s, []⟩).2.space := by
  simp only [plan, planInto]
  cases c.planMutation mutation ⟨s, []⟩ with
  | mk result after => cases result <;> rfl

end Planner

section Calls

variable {catalog : Catalog} {types : Types} {s s' : FieldSpace}

theorem FieldCall.leads (reached : catalog.Reachable) (keyed : s.defaults.Keyed)
    (call : FieldCall catalog types s s') : FieldSpace.Leads types catalog.IsMixed s s' := by
  cases call with
  | plan mutation same same' =>
    subst same same'
    rw [Planner.plan_space]
    exact Planner.leads_planMutation reached keyed (.refl _) mutation
  | planInto mutation set same same' =>
    subst same same'
    exact Planner.leads_planMutation reached keyed (.refl _) mutation
  | request condition order same one =>
    subst same
    exact Translator.moves_request one condition order s
  | raw query fallback same one =>
    subst same
    exact Translator.moves_raw one query fallback s
  | resolve key one => exact FieldSpace.moves_resolve one key s
  | expire id => exact FieldSpace.leads_expire id
  | invalidate store => exact FieldSpace.leads_invalidate store

theorem FieldCalls.leads (reached : catalog.Reachable) (keyed : s.defaults.Keyed)
    (calls : FieldCalls catalog types s s') : FieldSpace.Leads types catalog.IsMixed s s' := by
  induction calls with
  | refl => exact Std.Refl.refl s
  | tail _ call ih => exact IsTrans.trans _ _ _ ih (call.leads reached (ih.extends.keyed keyed))

end Calls

/-- What a set holds came to it, and its field too. -/
theorem UpdateSet.mixed_source {us : List IndexUpdate} {u : MixedUpdate}
    (h : u ∈ (empty.insertAll us).mixeds) : ∃ x ∈ mixedsOf us, x.bare = u.bare := by
  obtain ⟨z, came, bare⟩ := source_of_mem (mem_mixedsOf.1 h)
  cases z with
  | composite z => cases bare
  | mixed z => exact ⟨z, mem_mixedsOf.2 came, IndexUpdate.mixed.inj bare⟩

namespace Planner

open FieldTraffic (notesField)

variable {c : Planner} {s s' : FieldSpace} {mutation : Mutation} {set : UpdateSet} {defaults : DefaultFields}

/-- The update is the one for the value, and after any further calls a query for the key goes to its field. -/
def Addresses (c : Planner) (s : FieldSpace) (w : FieldWrite) (u : MixedUpdate) : Prop :=
  c.Makes w u ∧ (w.IsNamed → ∀ later, FieldCalls c.catalog c.types s later →
    (FieldSpace.resolve c.types w.index w.key later).1 = .ok u.field)

/-- A plan that succeeds after any calls has an update for each value that its mutation has for a field, and
after any further calls a query for the key goes to the field of the update. A set that is made of the updates
changes no field of them. -/
theorem plan_resolves (reached : c.catalog.Reachable) (schema : c.NamesFields) (keyed : defaults.Keyed)
    (before : FieldCalls c.catalog c.types (.new defaults) s)
    (planned : c.plan mutation s = (.ok set, s')) :
    ∃ us, set = UpdateSet.empty.insertAll us ∧
      List.Forall₂ (c.Addresses s') (c.writes defaults mutation) (mixedsOf us) ∧
      ∀ u ∈ set.mixeds, ∃ x ∈ mixedsOf us, x.bare = u.bare := by
  have start := before.leads reached keyed
  have settled := start.settled reached.apart (FieldTraffic.sound_new defaults)
  obtain ⟨there, us, rfl, landed⟩ := plan_lands reached keyed settled start.extends planned
  have keyed' := (start.extends.trans there.extends).keyed keyed
  refine ⟨us, rfl, landed.imp fun w u lands => ⟨lands.makes, fun named later calls => ?_⟩,
    fun u member => UpdateSet.mixed_source member⟩
  have on := calls.leads reached keyed'
  obtain ⟨names, made⟩ := FieldNames.exists_ofIndex (schema w.index lands.known) later.defaults
  refine ((on.settled reached.apart (there.settled reached.apart settled)).resolve_ok_iff reached.apart
    lands.known).2 ⟨names, made, ?_⟩
  exact (lands.mono keyed' on.extends).named named names made

/-- The years of vertices and their notes, which no index declares. -/
def notesPlanner : Planner :=
  { searchPlanner with
    types := .overlay (.ofList [(notesField.key, .propertyKey notesField.key "noted" .string)])
      Schema.acquaintance.lookup
    registrar := some fun _ _ => .ok () }

theorem notesPlanner_namesFields : notesPlanner.NamesFields := by
  intro i known _
  have only : i = searchedSince := by
    rw [Catalog.IsMixed, Catalog.get?, show notesPlanner.catalog.byId =
      KeyMap.empty.insert searchedSince.id (.mixed searchedSince) from rfl, KeyMap.get?_insert] at known
    split at known
    · exact (IndexDefinition.mixed.inj (Option.some.inj known)).symm
    · cases known
  subst only
  intro f there _
  obtain rfl := List.mem_singleton.1 there
  exact ⟨_, rfl⟩

/-- The search index learns of the notes with the first one. The plan, made after an expiry, writes to the name
under which queries find the notes. -/
theorem plan_resolves_notes : ∃ (set : UpdateSet) (s' : FieldSpace),
    notesPlanner.plan (.vertexProperty ⟨"ann", none, []⟩ ⟨"n", notesField.key, .string "tall", .empty⟩ .add)
      ((FieldSpace.new (DefaultFields.empty.insert notesField)).expire searchedSince.id).2 = (.ok set, s') ∧
    set.mixeds.map (·.field) = ["notes"] ∧
    ∃ us, set = UpdateSet.empty.insertAll us ∧
      List.Forall₂ (notesPlanner.Addresses s') (notesPlanner.writes (DefaultFields.empty.insert notesField)
        (.vertexProperty ⟨"ann", none, []⟩ ⟨"n", notesField.key, .string "tall", .empty⟩ .add))
        (mixedsOf us) ∧
      ∀ u ∈ set.mixeds, ∃ x ∈ mixedsOf us, x.bare = u.bare := by
  have reached : notesPlanner.catalog.Reachable := Catalog.Reachable.empty.create (d := .mixed searchedSince) rfl
  refine ⟨_, _, rfl, rfl, ?_⟩
  exact plan_resolves reached notesPlanner_namesFields (DefaultFields.keyed_empty.insert notesField)
    (.single (.expire searchedSince.id)) rfl

end Planner

end GraphStore
