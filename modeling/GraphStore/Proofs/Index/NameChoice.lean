import GraphStore.Proofs.Index.CatalogUse
import GraphStore.Proofs.Index.Contributions
import GraphStore.Proofs.Index.FieldAgreement
import GraphStore.Proofs.Index.Placement
import GraphStore.Proofs.Schema.Growth

/-!
Names that keys of one index share. The schema gives every key a name of its own. Other names are chosen: a
declared field may be mapped to any, and a default field brings its reserved one. Nothing checks a chosen name
against the others, so two keys can have one name, and then a choice has made it so. An index whose chosen names
are no other key's has a field of its own for each key.
-/
namespace GraphStore

namespace FieldNames

/-- The name that the schema gives the key of a declared field that is mapped to none. -/
def derived? (types : Types) (i : MixedIndex) (key : SchemaId) : Option String :=
  (i.field? key).bind fun f =>
    if f.mappedName = none ∧ i.source = .managed then (types.type? key).map (·.name) else none

/-- The name that a key has by choice: the one that its field is mapped to, or that of its default field if the
index has no other name for it. -/
def chosen? (types : Types) (d : DefaultFields) (i : MixedIndex) (key : SchemaId) : Option String :=
  ((i.field? key).bind (·.mappedName)).or
    (if (derived? types i key).isSome then none else (d.field? key).map (·.name))

/-- No chosen name is what another key is called. -/
def Uncontested (types : Types) (d : DefaultFields) (i : MixedIndex) : Prop :=
  ∀ key key' name, chosen? types d i key = some name → called? types d i key' = some name → key = key'

variable {types : Types} {d e : DefaultFields} {i : MixedIndex} {names : FieldNames} {key key' : SchemaId}
variable {name : String} {fields : List MixedField}

theorem findSome?_of_nodup {α : Type} (g : MixedField → Option α) (distinct : (fields.map (·.key)).Nodup) :
    fields.reverse.findSome? (fun f => if f.key = key then g f else none) =
      (fields.find? (·.key = key)).bind g := by
  induction fields with
  | nil => rfl
  | cons f rest ih =>
    obtain ⟨fresh, distinct⟩ := List.nodup_cons.1 distinct
    rw [List.reverse_cons, List.findSome?_append, ih distinct]
    by_cases own : f.key = key
    · have none : rest.find? (·.key = key) = none := by
        rw [List.find?_eq_none]
        intro g there
        simpa using fun same : g.key = key => fresh (List.mem_map.2 ⟨g, there, same.trans own.symm⟩)
      simp [none, own]
    · simp [own]

/-- What a key is called is chosen, or comes from the schema. -/
theorem called?_eq (distinct : (i.fields.map (·.key)).Nodup) :
    called? types d i key = (chosen? types d i key).or (derived? types i key) := by
  have declared : declared? types i key =
      (i.field? key).bind fun f => (declaredName types i.source f).toOption.join :=
    findSome?_of_nodup _ distinct
  rw [called?, declared, chosen?, derived?]
  cases found : i.field? key with
  | none => simp
  | some f =>
    have own : f.key = key := by simpa using List.find?_some found
    cases mapped : f.mappedName with
    | some name => simp [declaredName, mapped, Except.toOption]
    | none =>
      cases source : i.source with
      | external => simp [declaredName, mapped, Except.toOption]
      | managed =>
        cases typed : types.type? key with
        | none => simp [declaredName, mapped, Types.existing, own, typed, Except.map, Except.toOption]
        | some t => simp [declaredName, mapped, Types.existing, own, typed, Except.map, Except.toOption]

section Schema

variable {schema : Schema} (grown : schema.Reachable) (lookup : types = schema.lookup)

include grown lookup

/-- Names that a schema has given are no two keys'. -/
theorem derived?_injective (one : derived? types i key = some name) (other : derived? types i key' = some name) :
    key = key' := by
  have typed {k : SchemaId} (h : derived? types i k = some name) :
      ∃ t, schema.types.get? k = some t ∧ t.name = name := by
    subst lookup
    obtain ⟨f, -, given⟩ := Option.bind_eq_some_iff.1 h
    split at given
    · exact Option.map_eq_some_iff.1 given
    · cases given
  obtain ⟨t, found, here⟩ := typed one
  obtain ⟨t', found', there⟩ := typed other
  exact grown.named found found' (here.trans there.symm)

/-- If two keys are called the same, one of them is so by choice. -/
theorem chosen_of_called (distinct : (i.fields.map (·.key)).Nodup) (one : called? types d i key = some name)
    (other : called? types d i key' = some name) (apart : key ≠ key') :
    chosen? types d i key = some name ∨ chosen? types d i key' = some name := by
  rw [called?_eq distinct, Option.or_eq_some_iff] at one other
  rcases one with chosen | ⟨-, derived⟩
  · exact .inl chosen
  · rcases other with chosen | ⟨-, derived'⟩
    · exact .inr chosen
    · exact absurd (derived?_injective grown lookup derived derived') apart

theorem Uncontested.called_injective (uncontested : Uncontested types d i)
    (distinct : (i.fields.map (·.key)).Nodup) (one : called? types d i key = some name)
    (other : called? types d i key' = some name) : key = key' := by
  by_contra apart
  rcases chosen_of_called grown lookup distinct one other apart with chosen | chosen
  · exact apart (uncontested key key' name chosen other)
  · exact apart (uncontested key' key name chosen one).symm

end Schema

/-- The key of a name is the least of those that have it. -/
theorem keyOf?_eq_some_iff : names.keyOf? name = some key ↔
    names.get? key = some name ∧ ∀ k, names.get? k = some name → ¬k < key := by
  have least {k : SchemaId} (h : names.keyOf? name = some k) :
      names.get? k = some name ∧ ∀ k', names.get? k' = some name → ¬k' < k := by
    obtain ⟨e, found, rfl⟩ := Option.map_eq_some_iff.1 h
    obtain ⟨named, front, rest, shape, others⟩ := List.find?_eq_some_iff_append.1 found
    obtain rfl : e.2 = name := by simpa using named
    refine ⟨KeyMap.mem_entries.1 (by simp [shape]), fun k' named below => ?_⟩
    -- the entries ascend, so what stands behind the one that is found has a greater key
    have ascending := names.names.ascending
    have there := KeyMap.mem_entries.2 named
    rw [shape] at ascending there
    rcases List.mem_append.1 there with before | after
    · simpa using others _ before
    · rw [SchemaId.lt_iff] at below
      rcases List.mem_cons.1 after with same | behind
      · rw [← congrArg Prod.fst same] at below
        exact Nat.lt_irrefl _ below
      · have above : e.1 < k' := (List.pairwise_cons.1 (List.pairwise_append.1 ascending).2.1).1 _ behind
        rw [SchemaId.lt_iff] at above
        omega
  refine ⟨least, fun ⟨named, below⟩ => ?_⟩
  cases found : names.keyOf? name with
  | none =>
    have other := List.find?_eq_none.1 (Option.map_eq_none_iff.1 found) _ (KeyMap.mem_entries.2 named)
    simp at other
  | some k =>
    obtain ⟨named', below'⟩ := least found
    have up := below' key named
    have down := below k named'
    rw [SchemaId.lt_iff] at up down
    rw [SchemaId.toNat_inj.1 (by omega : k.toNat = key.toNat)]

end FieldNames

/-- What an index with names that two keys share can count on: one of the two has its name by choice, and the name
leads back to the least of its keys. -/
structure FieldNames.Shared (types : Types) (d : DefaultFields) (i : MixedIndex) (names : FieldNames) :
    Prop where
  chosen : ∀ key key' name, names.get? key = some name → names.get? key' = some name → key ≠ key' →
    chosen? types d i key = some name ∨ chosen? types d i key' = some name
  least : ∀ key name, names.keyOf? name = some key →
    names.get? key = some name ∧ ∀ k, names.get? k = some name → ¬k < key

/-- Every key has a name of its own, and the name leads back to it. -/
structure FieldNames.Told (names : FieldNames) : Prop where
  distinct : ∀ key key' name, names.get? key = some name → names.get? key' = some name → key = key'
  back : ∀ key name, names.get? key = some name → names.keyOf? name = some key

namespace Planner

variable {c : Planner} {d : DefaultFields} {i : MixedIndex} {schema : Schema}

/-- The updates of plans for an index are placed, and if those for two keys share a field, one of the keys has it
by choice. -/
structure KeepsFields (c : Planner) (d : DefaultFields) (i : MixedIndex) : Prop where
  placed : ∀ s, FieldCalls c.catalog c.types (.new d) s → ∀ mutation,
    ∀ u ∈ mixedsOf (c.planMutation mutation ⟨s, []⟩).2.planned, u.index = i.id →
      ∃ w ∈ c.writes d mutation, w.index = i ∧ c.Places d w u
  chosen : ∀ w w' u u', c.Places d w u → c.Places d w' u' → w.index = i → w'.index = i →
    w.key ≠ w'.key → u.field = u'.field → FieldNames.chosen? c.types d i w.key = some u.field ∨
      FieldNames.chosen? c.types d i w'.key = some u.field

/-- A name that is looked up after any calls is what the key is called. -/
theorem called_of_names (reached : c.catalog.Reachable) (keyed : d.Keyed) (known : c.catalog.IsMixed i)
    {s : FieldSpace} (calls : FieldCalls c.catalog c.types (.new d) s) {names : FieldNames}
    (found : (FieldSpace.names c.types i s).1 = .ok names) {key : SchemaId} {name : String}
    (named : names.get? key = some name) : FieldNames.called? c.types d i key = some name := by
  have leads := calls.leads reached keyed
  have settled := leads.settled reached.apart (FieldTraffic.sound_new d)
  rw [(settled.names_run reached.apart known).1] at found
  cases made : FieldNames.ofIndex c.types s.defaults i with
  | error fault =>
    rw [made] at found
    cases found
  | ok names' =>
    rw [made] at found
    obtain rfl : names' = names := Except.ok.inj found
    have called := FieldNames.called?_of_get? (leads.extends.keyed keyed) made named
    rwa [FieldNames.called?_of_extends leads.extends] at called

/-- After any calls, what a plan comes to for an index is placed there. -/
theorem placed_of_calls (reached : c.catalog.Reachable) (keyed : d.Keyed) (known : c.catalog.IsMixed i)
    {s : FieldSpace} (calls : FieldCalls c.catalog c.types (.new d) s) (mutation : Mutation) {u : MixedUpdate}
    (planned : u ∈ mixedsOf (c.planMutation mutation ⟨s, []⟩).2.planned) (here : u.index = i.id) :
    ∃ w ∈ c.writes d mutation, w.index = i ∧ c.Places d w u := by
  have leads := calls.leads reached keyed
  have settled := leads.settled reached.apart (FieldTraffic.sound_new d)
  obtain ⟨w, listed, placed⟩ := placed_of_planned reached keyed leads.extends settled mutation u planned
  obtain ⟨type, -, made⟩ := placed.makes
  have same : w.index.id = i.id := by rw [← here, ← IndexUpdate.mixed.inj made]
  exact ⟨w, listed, reached.apart w.index i placed.known known (.inl same), placed⟩

/-- Two keys of an index share a name, and updates for them a field, only by choice. If no chosen name is what
another key is called, each key has a name of its own, and updates for two keys never touch one field. -/
theorem fields_apart (grown : schema.Reachable) (lookup : c.types = schema.lookup)
    (reached : c.catalog.Reachable) (keyed : d.Keyed) (known : c.catalog.IsMixed i) :
    (∀ s, FieldCalls c.catalog c.types (.new d) s → ∀ names,
      (FieldSpace.names c.types i s).1 = .ok names → names.Shared c.types d i) ∧
    c.KeepsFields d i ∧
    (FieldNames.Uncontested c.types d i →
      (∀ s, FieldCalls c.catalog c.types (.new d) s → ∀ names,
        (FieldSpace.names c.types i s).1 = .ok names → names.Told) ∧
      ∀ w w' u u', c.Places d w u → c.Places d w' u' → w.index = i → w'.index = i → w.key ≠ w'.key →
        u.field ≠ u'.field) := by
  have distinct : (i.fields.map (·.key)).Nodup := (reached.tidy.keyed i.id (.mixed i) known).2
  have chosen {key key' : SchemaId} {name : String} (apart : key ≠ key')
      (one : FieldNames.called? c.types d i key = some name)
      (other : FieldNames.called? c.types d i key' = some name) :
      FieldNames.chosen? c.types d i key = some name ∨ FieldNames.chosen? c.types d i key' = some name :=
    FieldNames.chosen_of_called grown lookup distinct one other apart
  refine ⟨fun s calls names found => ⟨?_, ?_⟩, ⟨?_, ?_⟩, fun uncontested => ⟨?_, ?_⟩⟩
  · exact fun key key' name one other apart => chosen apart
      (called_of_names reached keyed known calls found one)
      (called_of_names reached keyed known calls found other)
  · exact fun key name => FieldNames.keyOf?_eq_some_iff.1
  · exact fun s calls mutation u => placed_of_calls reached keyed known calls mutation
  · intro w w' u u' one other here here' differ same
    have first := one.called
    have second := other.called
    rw [here] at first
    rw [here', ← same] at second
    exact chosen differ first second
  · intro s calls names found
    have alone (key key' : SchemaId) (name : String) (one : names.get? key = some name)
        (other : names.get? key' = some name) : key = key' :=
      uncontested.called_injective grown lookup distinct
        (called_of_names reached keyed known calls found one)
        (called_of_names reached keyed known calls found other)
    refine ⟨alone, fun key name named => FieldNames.keyOf?_eq_some_iff.2 ⟨named, fun k other below => ?_⟩⟩
    rw [alone key k name named other, SchemaId.lt_iff] at below
    exact Nat.lt_irrefl _ below
  · intro w w' u u' one other here here' differ same
    have first := one.called
    have second := other.called
    rw [here, same] at first
    rw [here'] at second
    exact differ (uncontested.called_injective grown lookup distinct first second)

end Planner

section Years

/-- Years of birth. -/
def Schema.born : RelationType := .propertyKey (.ofNat 12) "born" .int

def Schema.years : Schema := ⟨.ofList [(since.id, since), (born.id, born)], .empty⟩

theorem Schema.years_reachable : years.Reachable := by
  have first : Schema.empty.addType since = .ok ⟨.ofList [(since.id, since)], .empty⟩ := rfl
  have second : Schema.addType ⟨.ofList [(since.id, since)], .empty⟩ born = .ok years := rfl
  exact (Reachable.empty.addType first).addType second

/-- Two kinds of years, of which the second is mapped to a name. -/
def yearsUnder (name : String) : MixedIndex :=
  ⟨.ofNat 21, "search", "es", .vertex, [⟨Schema.since.id, .enabled, .default, none⟩,
    ⟨Schema.born.id, .enabled, .default, some name⟩], none, .managed⟩

def yearsPlanner (name : String) : Planner :=
  { Planner.searchPlanner with
    catalog := ⟨.ofList [((yearsUnder name).id, .mixed (yearsUnder name))],
      [((yearsUnder name).name, (yearsUnder name).id)],
      .ofList [(Schema.since.id, [(yearsUnder name).id]), (Schema.born.id, [(yearsUnder name).id])]⟩
    types := Schema.years.lookup
    registrar := some fun _ _ => .ok () }

theorem yearsPlanner_reachable (name : String) : (yearsPlanner name).catalog.Reachable :=
  Catalog.Reachable.empty.create (d := .mixed (yearsUnder name)) rfl

theorem yearsPlanner_isMixed (name : String) : (yearsPlanner name).catalog.IsMixed (yearsUnder name) := rfl

theorem field?_yearsUnder (name : String) (key : SchemaId) : (yearsUnder name).field? key =
    if key = Schema.since.id then some ⟨Schema.since.id, .enabled, .default, none⟩
    else if key = Schema.born.id then some ⟨Schema.born.id, .enabled, .default, some name⟩ else none := by
  simp only [MixedIndex.field?, yearsUnder, List.find?_cons, List.find?_nil, eq_comm (a := key)]
  by_cases since : Schema.since.id = key <;> by_cases born : Schema.born.id = key <;> simp [since, born]

/-- A year that comes to Ann. -/
def annGets (key : SchemaId) (year : Int64) : Mutation :=
  .vertexProperty ⟨"ann", none, []⟩ ⟨"p", key, .int year, .empty⟩ .add

open FieldTraffic (notesField)

/-- With the second kind mapped to a name of its own, and notes besides, no name is contested. -/
theorem uncontested_years : FieldNames.Uncontested Schema.years.lookup (DefaultFields.empty.insert notesField)
    (yearsUnder "birth") := by
  have distinct : ((yearsUnder "birth").fields.map (·.key)).Nodup := by decide
  have called {key : SchemaId} {name : String} (h : FieldNames.called? Schema.years.lookup
      (DefaultFields.empty.insert notesField) (yearsUnder "birth") key = some name) :
      key = Schema.since.id ∧ name = "since" ∨ key = Schema.born.id ∧ name = "birth" ∨
        key = notesField.key ∧ name = "notes" := by
    have note : (DefaultFields.empty.insert notesField).field? key =
        if key = notesField.key then some notesField else none := KeyMap.get?_insert ..
    rw [FieldNames.called?_eq distinct, FieldNames.chosen?, note, FieldNames.derived?, field?_yearsUnder] at h
    by_cases since : key = Schema.since.id
    · subst since
      exact .inl ⟨rfl, (Option.some.inj h).symm⟩
    · by_cases born : key = Schema.born.id
      · subst born
        exact .inr (.inl ⟨rfl, (Option.some.inj h).symm⟩)
      · by_cases noted : key = notesField.key
        · rw [if_neg since, if_neg born, if_pos noted] at h
          exact .inr (.inr ⟨noted, (Option.some.inj h).symm⟩)
        · simp [since, born, noted] at h
  intro key key' name chosen other
  have one : FieldNames.called? Schema.years.lookup (DefaultFields.empty.insert notesField) (yearsUnder "birth") key =
      some name := by rw [FieldNames.called?_eq distinct, chosen, Option.some_or]
  rcases called one with ⟨rfl, rfl⟩ | ⟨rfl, rfl⟩ | ⟨rfl, rfl⟩ <;>
    simpa [eq_comm] using called other

/-- A year that Ann gets, for the index that keeps years of birth apart. -/
def yearWrite (key : SchemaId) (year : Int64) : FieldWrite :=
  ⟨⟨.vertex "ann", .add, none⟩, yearsUnder "birth", key, .int year, .empty⟩

/-- Ann's two years go to two fields. -/
theorem Planner.fields_apart_years : ∃ names,
    (FieldSpace.names Schema.years.lookup (yearsUnder "birth")
      (.new (DefaultFields.empty.insert notesField))).1 = .ok names ∧
    names.names.entries = [(Schema.since.id, "since"), (Schema.born.id, "birth")] ∧ names.Told ∧
    (yearsPlanner "birth").Places (DefaultFields.empty.insert notesField) (yearWrite Schema.since.id 2001) annYear ∧
    (yearsPlanner "birth").Places (DefaultFields.empty.insert notesField) (yearWrite Schema.born.id 1970)
      { annYear with field := "birth", value := .ofJson (.int 1970) } ∧
    annYear.field ≠ "birth" := by
  obtain ⟨told, apart⟩ := (fields_apart (c := yearsPlanner "birth") Schema.years_reachable rfl
    (yearsPlanner_reachable "birth") (DefaultFields.keyed_empty.insert notesField)
    (yearsPlanner_isMixed "birth")).2.2 uncontested_years
  have since : (yearsPlanner "birth").Places (DefaultFields.empty.insert notesField)
      (yearWrite Schema.since.id 2001) annYear :=
    ⟨yearsPlanner_isMixed "birth", ⟨Schema.since, rfl, rfl⟩, rfl⟩
  have born : (yearsPlanner "birth").Places (DefaultFields.empty.insert notesField)
      (yearWrite Schema.born.id 1970) { annYear with field := "birth", value := .ofJson (.int 1970) } :=
    ⟨yearsPlanner_isMixed "birth", ⟨Schema.born, rfl, rfl⟩, rfl⟩
  exact ⟨_, rfl, rfl, told _ .refl _ rfl, since, born, apart _ _ _ _ since born rfl rfl (by decide)⟩

/-- With the second kind mapped to the name of the first, the name leads back to the first only, and Ann is left
with one year of the two. -/
theorem Planner.years_share_field : ∃ names us space doc,
    (FieldSpace.names Schema.years.lookup (yearsUnder "since") (.new .empty)).1 = .ok names ∧
    names.get? Schema.since.id = some "since" ∧ names.get? Schema.born.id = some "since" ∧
    names.keyOf? "since" = some Schema.since.id ∧ Schema.born.id ≠ Schema.since.id ∧
    (yearsPlanner "since").updatesOf [annGets Schema.since.id 2001, annGets Schema.born.id 1970] (.new .empty) =
      (.ok us, space) ∧
    Document.assemble us = [doc] ∧ doc.fields.map (·.1) = ["since"] ∧
    doc.content "since" = .single (.int 1970) :=
  ⟨_, _, _, _, rfl, rfl, rfl, rfl, by decide, rfl, rfl, rfl, rfl⟩

end Years

end GraphStore
