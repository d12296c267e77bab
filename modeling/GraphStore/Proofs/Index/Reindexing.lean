import GraphStore.Proofs.Index.Accumulation
import GraphStore.Proofs.Index.SharedEntries
import Mathlib.Order.Bounds.Basic

/-!
Planning all properties of a vertex anew, into one set. A match of several values is planned once for each
of them, from whichever property it is seen, and the set keeps one update of it. So each index gets the
entries of the matches of the vertex, in whatever order the properties come.
-/
namespace GraphStore

namespace UpdateSet

variable {s : UpdateSet} {u : IndexUpdate}

/-- A set takes a composite update that it does not hold yet, and else keeps those it has. -/
theorem composites_insert (s : UpdateSet) (u : IndexUpdate) :
    (s.insert u).2.composites = s.composites ∨
      ∃ x, u = .composite x ∧ x ∉ s.composites ∧ (s.insert u).2.composites = s.composites ++ [x] := by
  obtain ⟨more, apart⟩ | ⟨kept, -⟩ := insert_cases s u
  · have split : (s.insert u).2.composites = s.composites ++ compositesOf [u] := by
      rw [composites, more, List.filterMap_append]
      rfl
    cases u with
    | mixed x => exact .inl (split.trans (List.append_nil _))
    | composite x =>
      refine .inr ⟨x, rfl, fun there => ?_, split⟩
      exact apart _ ((mem_composites s x).1 there) (IndexUpdate.absorbs_composite.2 rfl)
  · exact .inl (compositesOf_bare kept)

theorem nodup_insert (once : s.composites.Nodup) (u : IndexUpdate) : (s.insert u).2.composites.Nodup := by
  obtain same | ⟨x, -, fresh, more⟩ := composites_insert s u
  · rwa [same]
  · rw [more, ← List.concat_eq_append]
    exact once.concat fresh

theorem nodup_insertAll (once : s.composites.Nodup) (us : List IndexUpdate) :
    (s.insertAll us).composites.Nodup := by
  induction us generalizing s with
  | nil => exact once
  | cons u rest ih => exact ih (nodup_insert once u)

end UpdateSet

/-- The least of some times; there is none just if there are no times. -/
def Earliest (times : Set Nat) : Option Nat → Prop
  | some t => IsLeast times t
  | none => times = ∅

theorem Earliest.unique {times : Set Nat} {s t : Option Nat} (left : Earliest times s)
    (right : Earliest times t) : s = t := by
  cases s with
  | none =>
    obtain rfl := left
    cases t with
    | none => rfl
    | some t => exact absurd right.1 (Set.notMem_empty t)
  | some s =>
    cases t with
    | none =>
      obtain rfl := right
      exact absurd left.1 (Set.notMem_empty s)
    | some t => rw [IsLeast.unique left right]

theorem earliest_minTtl (ttls : List (Option Nat)) : Earliest {t | 0 < t ∧ some t ∈ ttls} (minTtl ttls) := by
  have listed (t : Nat) : t ∈ (ttls.filterMap id).filter (0 < ·) ↔ 0 < t ∧ some t ∈ ttls := by
    simp [and_comm]
  cases least : minTtl ttls with
  | none =>
    have none_left := List.min?_eq_none_iff.1 least
    simp only [none_left, List.not_mem_nil, false_iff] at listed
    exact Set.eq_empty_iff_forall_notMem.2 listed
  | some t =>
    obtain ⟨there, below⟩ := List.min?_eq_some_iff.1 least
    exact ⟨(listed t).1 there, fun other known => below other ((listed other).2 known)⟩

namespace Planner

variable {c : Planner} {v : Vertex} {i : CompositeIndex} {m : Match} {x y : CompositeUpdate}
variable {space space' : FieldSpace} {set set' : UpdateSet} {props : List VertexProperty}

theorem mem_keyTtls {types : Types} {keys : List SchemaId} {ttls : List (Option Nat)}
    (h : keyTtls types keys = .ok ttls) (ttl : Option Nat) :
    ttl ∈ ttls ↔ ∃ key ∈ keys, ∃ type, types.existing key = .ok type ∧ type.ttl = ttl := by
  induction keys generalizing ttls with
  | nil =>
    obtain rfl := Except.ok.inj h
    simp
  | cons key rest ih =>
    obtain ⟨type, known, h⟩ := bind_ok_iff.1 h
    obtain ⟨others, later, h⟩ := bind_ok_iff.1 h
    obtain rfl := pure_ok_iff.1 h
    simp [ih later, known, eq_comm]

theorem keyTtls_exists_iff {types : Types} {keys : List SchemaId} :
    (∃ ttls, keyTtls types keys = .ok ttls) ↔ ∀ key ∈ keys, ∃ type, types.existing key = .ok type := by
  induction keys with
  | nil => simp [keyTtls]
  | cons key rest ih =>
    rw [List.forall_mem_cons, ← ih]
    constructor
    · rintro ⟨ttls, h⟩
      obtain ⟨type, known, h⟩ := bind_ok_iff.1 h
      obtain ⟨others, later, -⟩ := bind_ok_iff.1 h
      exact ⟨⟨type, known⟩, others, later⟩
    · rintro ⟨⟨type, known⟩, others, later⟩
      exact ⟨_, bind_ok_iff.2 ⟨type, known, bind_ok_iff.2 ⟨others, later, rfl⟩⟩⟩

/-- How long the label of a vertex and the keys of an index let an entry live: the times above zero. -/
def lifetimes (c : Planner) (v : Vertex) (i : CompositeIndex) : Set Nat :=
  {t | 0 < t ∧ ((v.label.bind c.types.label?).bind (·.ttl) = some t ∨
    ∃ key ∈ i.fields, ∃ type, c.types.existing key = .ok type ∧ type.ttl = some t)}

/-- An update is the addition of the entry of a match of a vertex. -/
structure Adds (c : Planner) (v : Vertex) (i : CompositeIndex) (m : Match) (x : CompositeUpdate) : Prop where
  index : x.index = i.id
  kind : x.kind = .add
  element : x.element = .vertex v.id
  key : c.keys.ofMatch c.types i m = .ok x.key
  entry : IndexEntry.build i m (.vertex v.id) = .ok x.entry
  ttl : Earliest (c.lifetimes v i) x.ttl

/-- The updates of an index are one addition for each key and entry that a match of the vertex has. -/
structure Reindexes (c : Planner) (v : Vertex) (i : CompositeIndex) (us : List CompositeUpdate) : Prop where
  once : (us.map fun x => (x.key, x.entry)).Nodup
  complete : ∀ m ∈ Match.ofVertex v i.fields none, ∃ x ∈ us, c.Adds v i m x
  sound : ∀ x ∈ us, ∃ m ∈ Match.ofVertex v i.fields none, c.Adds v i m x

/-- What the addition of a match is made of. -/
theorem compositeUpdate_adds (found : m ∈ Match.ofVertex v i.fields none)
    (made : c.compositeUpdate (c.vertexContext v .add) i m = .ok (.composite x)) : c.Adds v i m x := by
  obtain ⟨y, same, index, kind, key, entry, element, ttls, known, ttl⟩ := compositeUpdate_ok made
  obtain rfl := IndexUpdate.composite.inj same
  refine ⟨index, kind, element, key, entry, ?_⟩
  rw [Match.keys_of_mem_ofVertex found] at known
  have bounded (t : Nat) : some t ∈ (c.vertexContext v .add).ttl :: ttls ↔
      (v.label.bind c.types.label?).bind (·.ttl) = some t ∨
        ∃ key ∈ i.fields, ∃ type, c.types.existing key = .ok type ∧ type.ttl = some t := by
    rw [List.mem_cons, mem_keyTtls known, eq_comm]
    rfl
  have least := earliest_minTtl ((c.vertexContext v .add).ttl :: ttls)
  simp only [bounded] at least
  rw [ttl]
  exact least

theorem Adds.eq_of_pair {n : Match} (left : c.Adds v i m x) (right : c.Adds v i n y)
    (same : (x.key, x.entry) = (y.key, y.entry)) : x = y := by
  obtain ⟨key, entry⟩ := Prod.mk.inj same
  have index : x.index = y.index := left.index.trans right.index.symm
  have kind : x.kind = y.kind := left.kind.trans right.kind.symm
  have element : x.element = y.element := left.element.trans right.element.symm
  have ttl : x.ttl = y.ttl := left.ttl.unique right.ttl
  cases x
  cases y
  simp_all only

/-- The additions of some properties of a vertex. -/
def additions (v : Vertex) (props : List VertexProperty) : List Mutation :=
  props.map fun p => .vertexProperty v p .add

theorem planAll_nil (planned : c.planAll [] (space, set) = (.ok (), space', set')) : set' = set := by
  obtain ⟨-, same⟩ := Prod.mk.inj planned
  exact (Prod.mk.inj same).2.symm

/-- Of mutations that go into one set, the first adds what its plan by itself holds. -/
theorem planAll_cons {mutation : Mutation} {rest : List Mutation}
    (planned : c.planAll (mutation :: rest) (space, set) = (.ok (), space', set')) :
    ∃ alone middle between, c.plan mutation space = (.ok alone, middle) ∧
      c.planAll rest (middle, between) = (.ok (), space', set') ∧
      (∀ x, x ∈ between.composites ↔ x ∈ set.composites ∨ x ∈ alone.composites) ∧
      (set.composites.Nodup → between.composites.Nodup) := by
  obtain ⟨_, between, first, later⟩ := Attempt.bind_run_ok_iff.1 planned
  cases run : c.planMutation mutation ⟨space, []⟩ with
  | mk result after =>
    simp only [planInto, run, Prod.mk.injEq] at first
    obtain ⟨rfl, rfl⟩ := first
    refine ⟨UpdateSet.empty.insertAll after.planned, after.space, set.insertAll after.planned, ?_, later,
      fun x => ?_, fun once => UpdateSet.nodup_insertAll once _⟩
    · simp only [plan, planInto, run]
    · simp only [UpdateSet.mem_composites, UpdateSet.mem_insertAll, UpdateSet.empty, List.not_mem_nil,
        false_or]

theorem nodup_planAll {mutations : List Mutation} (once : set.composites.Nodup)
    (planned : c.planAll mutations (space, set) = (.ok (), space', set')) : set'.composites.Nodup := by
  induction mutations generalizing space set with
  | nil => exact planAll_nil planned ▸ once
  | cons mutation rest ih =>
    obtain ⟨_, _, _, -, later, -, still⟩ := planAll_cons planned
    exact ih (still once) later

/-- What the set held stays. -/
theorem mem_planAll_of_mem {mutations : List Mutation} (held : x ∈ set.composites)
    (planned : c.planAll mutations (space, set) = (.ok (), space', set')) : x ∈ set'.composites := by
  induction mutations generalizing space set with
  | nil => exact planAll_nil planned ▸ held
  | cons mutation rest ih =>
    obtain ⟨_, _, _, -, later, joined, -⟩ := planAll_cons planned
    exact ih ((joined x).2 (.inl held)) later

/-- What comes to the set is planned for a match that one of the properties takes part in. -/
theorem origin_of_mem_planAll (reached : c.catalog.Reachable)
    (planned : c.planAll (additions v props) (space, set) = (.ok (), space', set'))
    (there : x ∈ set'.composites) :
    x ∈ set.composites ∨ ∃ j, c.Maintains j v.label ∧ ∃ p ∈ props, p.key ∈ j.fields ∧
      ∃ m ∈ Match.ofVertex v j.fields (some p.matched),
        c.compositeUpdate (c.vertexContext v .add) j m = .ok (.composite x) := by
  induction props generalizing space set with
  | nil => exact .inl (planAll_nil planned ▸ there)
  | cons p rest ih =>
    obtain ⟨alone, _, _, first, later, joined, -⟩ := planAll_cons planned
    obtain before | ⟨j, keeps, q, on, found⟩ := ih later
    · obtain held | come := (joined x).1 before
      · exact .inl held
      · obtain ⟨j, known, maintained, applies, inside, found⟩ := origin_of_mem_plan reached.sound first come
        exact .inr ⟨j, ⟨reached, known, maintained, applies⟩, p, List.mem_cons_self, inside, found⟩
    · exact .inr ⟨j, keeps, q, List.mem_cons_of_mem _ on, found⟩

/-- Every match that one of the properties takes part in has its update in the set. -/
theorem mem_planAll_of_match (keeps : c.Maintains i v.label)
    (planned : c.planAll (additions v props) (space, set) = (.ok (), space', set')) {p : VertexProperty}
    (on : p ∈ props) (inside : p.key ∈ i.fields) (found : m ∈ Match.ofVertex v i.fields (some p.matched)) :
    ∃ x ∈ set'.composites, c.compositeUpdate (c.vertexContext v .add) i m = .ok (.composite x) := by
  induction props generalizing space set with
  | nil => cases on
  | cons q rest ih =>
    obtain ⟨alone, _, _, first, later, joined, -⟩ := planAll_cons planned
    rcases List.mem_cons.1 on with rfl | on
    · obtain ⟨x, there, made⟩ := planned_of_match keeps.reached.sound keeps.known keeps.maintained
        keeps.applies first inside found
      exact ⟨x, mem_planAll_of_mem ((joined x).2 (.inr there)) later, made⟩
    · exact ih later on

/-- Additions of all properties of a vertex, in any order, put into an empty set what each index that is kept
up and covers the vertex is to hold for it, and nothing else. -/
theorem reindexes_planAll (reached : c.catalog.Reachable) (order : props.Perm v.properties)
    (planned : c.planAll (additions v props) (space, .empty) = (.ok (), space', set)) :
    (∀ i, c.Maintains i v.label → c.Reindexes v i (set.composites.filter (·.index = i.id))) ∧
      ∀ x ∈ set.composites, ∃ i, c.Maintains i v.label ∧ x.index = i.id := by
  have origin {x : CompositeUpdate} (there : x ∈ set.composites) : ∃ i, c.Maintains i v.label ∧
      ∃ m ∈ Match.ofVertex v i.fields none, c.Adds v i m x := by
    obtain absurd | ⟨i, keeps, p, on, inside, m, found, made⟩ :=
      origin_of_mem_planAll reached planned there
    · cases absurd
    have whole := (Match.mem_ofVertex_iff keeps.fields.1 keeps.fields.2).2
      ⟨p, order.mem_iff.1 on, inside, found⟩
    exact ⟨i, keeps, m, whole, compositeUpdate_adds whole made⟩
  refine ⟨fun i keeps => ?_, fun x there => ?_⟩
  · have sound : ∀ x ∈ set.composites.filter (·.index = i.id),
        ∃ m ∈ Match.ofVertex v i.fields none, c.Adds v i m x := by
      intro x there
      obtain ⟨there, own⟩ := List.mem_filter.1 there
      obtain ⟨j, stands, m, found, adds⟩ := origin there
      have known := stands.known
      rw [adds.index.symm.trans (of_decide_eq_true own), keeps.known] at known
      obtain rfl := IndexDefinition.composite.inj (Option.some.inj known)
      exact ⟨m, found, adds⟩
    refine ⟨?_, fun m found => ?_, sound⟩
    · have start : UpdateSet.empty.composites.Nodup := List.nodup_nil
      refine List.Nodup.map_on (fun x there y there' same => ?_) ((nodup_planAll start planned).filter _)
      obtain ⟨m, -, left⟩ := sound x there
      obtain ⟨n, -, right⟩ := sound y there'
      exact left.eq_of_pair right same
    · obtain ⟨p, on, inside, part⟩ := (Match.mem_ofVertex_iff keeps.fields.1 keeps.fields.2).1 found
      obtain ⟨x, there, made⟩ := mem_planAll_of_match keeps planned (order.mem_iff.2 on) inside part
      have adds := compositeUpdate_adds found made
      exact ⟨x, List.mem_filter.2 ⟨there, decide_eq_true adds.index⟩, adds⟩
  · obtain ⟨i, keeps, m, -, adds⟩ := origin there
    exact ⟨i, keeps, adds.index⟩

/-- A mood, which lasts for a day. -/
def mood : RelationType := { RelationType.propertyKey (.ofNat 13) "mood" .string with ttl := some 86400 }

/-- An index over the years of visits with a mood. -/
def byVisitAndMood : CompositeIndex :=
  ⟨.ofNat 23, "by visit and mood", .vertex, [visited.id, mood.id], .set, .enabled, none⟩

def moodPlanner : Planner :=
  ⟨⟨.ofList [(byVisitAndMood.id, .composite byVisitAndMood)], [(byVisitAndMood.name, byVisitAndMood.id)],
    .ofList [(visited.id, [byVisitAndMood.id]), (mood.id, [byVisitAndMood.id])]⟩,
    (Schema.mk (.ofList [(visited.id, visited), (mood.id, mood)]) .empty).lookup, .sha256 none, .none, none⟩

theorem moodPlanner_maintains : moodPlanner.Maintains byVisitAndMood none where
  reached := Catalog.Reachable.empty.create (d := .composite byVisitAndMood) rfl
  known := rfl
  maintained := rfl
  applies := rfl

/-- Ann was away three times, twice in one year. -/
def cheerful : Vertex :=
  ⟨"ann", none, [visit "p" 2001, visit "q" 2001, visit "r" 2005, ⟨"m", mood.id, .string "glad", .empty⟩]⟩

theorem reindexes_planAll_cheerful : ∃ space set,
    moodPlanner.planAll (additions cheerful cheerful.properties.reverse) (.new .empty, .empty) =
        (.ok (), space, set) ∧
      (Match.ofVertex cheerful byVisitAndMood.fields none).length = 3 ∧
      set.composites.map (·.ttl) = [some 86400, some 86400] ∧
      moodPlanner.Reindexes cheerful byVisitAndMood
        (set.composites.filter (·.index = byVisitAndMood.id)) := by
  obtain ⟨space, set, planned, lasts⟩ : ∃ space set,
      moodPlanner.planAll (additions cheerful cheerful.properties.reverse) (.new .empty, .empty) =
          (.ok (), space, set) ∧
        set.composites.map (·.ttl) = [some 86400, some 86400] := ⟨_, _, rfl, rfl⟩
  have filled := reindexes_planAll moodPlanner_maintains.reached (List.reverse_perm _) planned
  exact ⟨space, set, planned, rfl, lasts, filled.1 byVisitAndMood moodPlanner_maintains⟩

end Planner

end GraphStore
