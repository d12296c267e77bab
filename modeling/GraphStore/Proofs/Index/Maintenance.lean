import GraphStore.Proofs.Index.Planning
import GraphStore.Proofs.Schema

/-!
A composite vertex index that is kept up by plans. However properties come and go, the index holds the
entries of just the matches of the vertex: an addition puts those that the new property takes part in, and
a removal, planned from what the vertex is then, names the same ones again.
-/
namespace GraphStore

/-- The value at each key and column of an index. -/
abbrev IndexContent := Bytes × Bytes → Option Bytes

namespace IndexContent

def empty : IndexContent := fun _ => none

/-- Where a composite update strikes. -/
def place (u : CompositeUpdate) : Bytes × Bytes := (u.key, u.entry.column)

/-- What an update leaves at its place. -/
def outcome (u : CompositeUpdate) : Option Bytes :=
  match u.kind with
  | .add => some u.entry.value
  | .delete => none

def apply (held : IndexContent) (u : CompositeUpdate) : IndexContent := fun spot =>
  if spot = place u then outcome u else held spot

/-- The updates of one index, in order. -/
def applyAll (id : SchemaId) (held : IndexContent) (us : List CompositeUpdate) : IndexContent :=
  (us.filter (·.index = id)).foldl apply held

variable {id : SchemaId} {held : IndexContent} {us : List CompositeUpdate} {spot : Bytes × Bytes}

theorem foldl_apply_miss (h : ∀ u ∈ us, place u ≠ spot) : us.foldl apply held spot = held spot := by
  induction us generalizing held with
  | nil => rfl
  | cons u rest ih =>
    rw [List.foldl_cons, ih fun x member => h x (List.mem_cons_of_mem _ member), apply,
      if_neg (Ne.symm (h u List.mem_cons_self))]

theorem foldl_apply_hit {left : Option Bytes} (h : ∃ u ∈ us, place u = spot)
    (agree : ∀ u ∈ us, outcome u = left) : us.foldl apply held spot = left := by
  induction us generalizing held with
  | nil => simp at h
  | cons u rest ih =>
    have later := fun x member => agree x (List.mem_cons_of_mem u member)
    rw [List.foldl_cons]
    by_cases again : ∃ x ∈ rest, place x = spot
    · exact ih again later
    · have here : place u = spot := by
        obtain ⟨x, member, struck⟩ := h
        rcases List.mem_cons.1 member with rfl | member
        · exact struck
        · exact absurd ⟨x, member, struck⟩ again
      rw [foldl_apply_miss fun x member struck => again ⟨x, member, struck⟩, apply,
        if_pos here.symm, agree u List.mem_cons_self]

theorem applyAll_miss (h : ∀ u ∈ us, u.index = id → place u ≠ spot) :
    applyAll id held us spot = held spot :=
  foldl_apply_miss fun u member => by
    obtain ⟨there, own⟩ := List.mem_filter.1 member
    exact h u there (of_decide_eq_true own)

theorem applyAll_hit {left : Option Bytes} (h : ∃ u ∈ us, u.index = id ∧ place u = spot)
    (agree : ∀ u ∈ us, u.index = id → outcome u = left) : applyAll id held us spot = left := by
  refine foldl_apply_hit ?_ fun u member => ?_
  · obtain ⟨u, there, own, struck⟩ := h
    exact ⟨u, List.mem_filter.2 ⟨there, decide_eq_true own⟩, struck⟩
  · obtain ⟨there, own⟩ := List.mem_filter.1 member
    exact agree u there (of_decide_eq_true own)

/-- Updates that leave the same leave it where they strike, and all else stays. -/
theorem applyAll_cases {left : Option Bytes} (agree : ∀ u ∈ us, u.index = id → outcome u = left)
    (held : IndexContent) (spot : Bytes × Bytes) :
    (∃ u ∈ us, u.index = id ∧ place u = spot) ∧ applyAll id held us spot = left ∨
      (∀ u ∈ us, u.index = id → place u ≠ spot) ∧ applyAll id held us spot = held spot := by
  by_cases hit : ∃ u ∈ us, u.index = id ∧ place u = spot
  · exact .inl ⟨hit, applyAll_hit hit agree⟩
  · have miss := fun u there own struck => hit ⟨u, there, own, struck⟩
    exact .inr ⟨miss, applyAll_miss miss⟩

end IndexContent

/-- The entry of a match of a vertex stands at a place of the index, with a value. -/
structure Planner.Puts (c : Planner) (i : CompositeIndex) (id : VertexId) (m : Match)
    (spot : Bytes × Bytes) (value : Bytes) : Prop where
  key : c.keys.ofMatch c.types i m = .ok spot.1
  entry : ∃ entry, IndexEntry.build i m (.vertex id) = .ok entry ∧ entry.column = spot.2 ∧
    entry.value = value

/-- The index holds the entries of all matches of the vertex, and nothing else. -/
structure Planner.Mirrors (c : Planner) (i : CompositeIndex) (v : Vertex) (held : IndexContent) :
    Prop where
  complete : ∀ m ∈ Match.ofVertex v i.fields none, ∃ spot value, c.Puts i v.id m spot value ∧
    held spot = some value
  sound : ∀ spot value, held spot = some value →
    ∃ m ∈ Match.ofVertex v i.fields none, c.Puts i v.id m spot value

/-- The index is in the catalog of the planner, is kept up, and covers vertices of a label. -/
structure Planner.Maintains (c : Planner) (i : CompositeIndex) (label : Option SchemaId) : Prop where
  reached : c.catalog.Reachable
  known : c.catalog.get? i.id = some (.composite i)
  maintained : i.status.isMaintained = true
  applies : i.appliesTo .vertex label = true

/-- The index is in the catalog of the planner, is kept up, has an entry for each match, and covers
vertices of a label. -/
structure Planner.Keeps (c : Planner) (i : CompositeIndex) (label : Option SchemaId) : Prop where
  reached : c.catalog.Reachable
  known : c.catalog.get? i.id = some (.composite i)
  cardinality : i.cardinality = .list
  maintained : i.status.isMaintained = true
  applies : i.appliesTo .vertex label = true

/-- A vertex, and an index kept up by the plans for what happens to the vertex. Each plan may see the
vertex as it was before or as it is after, and starts from any knowledge of fields. -/
inductive Planner.Run (c : Planner) (i : CompositeIndex) (id : VertexId) (label : Option SchemaId) :
    Vertex → IndexContent → Prop where
  | start : Run c i id label ⟨id, label, []⟩ .empty
  | add {v seen : Vertex} {held : IndexContent} {p : VertexProperty} {space space' : FieldSpace}
      {set : UpdateSet} : Run c i id label v held → (∀ q ∈ v.properties, q.id ≠ p.id) →
      seen = v ∨ seen = v.add p → c.plan (.vertexProperty seen p .add) space = (.ok set, space') →
      Run c i id label (v.add p) (held.applyAll i.id set.composites)
  | remove {v seen : Vertex} {held : IndexContent} {p : VertexProperty} {space space' : FieldSpace}
      {set : UpdateSet} : Run c i id label v held → p ∈ v.properties →
      seen = (v.remove p.id).2 ∨ seen = v →
      c.plan (.vertexProperty seen p .delete) space = (.ok set, space') →
      Run c i id label (v.remove p.id).2 (held.applyAll i.id set.composites)

namespace Planner

variable {c : Planner} {i : CompositeIndex} {small big seen : Vertex} {p : VertexProperty}
variable {held : IndexContent} {space space' : FieldSpace} {set : UpdateSet} {kind : UpdateKind}

theorem Keeps.maintains {label : Option SchemaId} (keeps : c.Keeps i label) : c.Maintains i label :=
  ⟨keeps.reached, keeps.known, keeps.maintained, keeps.applies⟩

theorem Maintains.element {label : Option SchemaId} (holds : c.Maintains i label) :
    i.element = .vertex := by
  have covered := holds.applies
  simp only [CompositeIndex.appliesTo, covers, Bool.and_eq_true, decide_eq_true_eq] at covered
  exact covered.1

theorem Maintains.fields {label : Option SchemaId} (holds : c.Maintains i label) :
    i.fields ≠ [] ∧ i.fields.Nodup := holds.reached.sound.distinct i.id i holds.known

theorem Keeps.fields {label : Option SchemaId} (keeps : c.Keeps i label) :
    i.fields ≠ [] ∧ i.fields.Nodup := keeps.maintains.fields

theorem build_vertex {label : Option SchemaId} (holds : c.Maintains i label) (m : Match) (id : VertexId) :
    IndexEntry.build i m (.vertex id) =
      .ok (.ofParts (IndexEntry.columnBytes i.cardinality m (.vertex id)) (Bytes.escapedText id)) := by
  rw [IndexEntry.build, holds.element]
  exact if_pos rfl

theorem Puts.unique {id : VertexId} {m : Match} {spot spot' : Bytes × Bytes} {value value' : Bytes}
    (left : c.Puts i id m spot value) (right : c.Puts i id m spot' value') :
    spot = spot' ∧ value = value' := by
  obtain ⟨key, entry, built, column, rfl⟩ := left
  obtain ⟨key', entry', built', column', rfl⟩ := right
  obtain rfl := Except.ok.inj (built.symm.trans built')
  exact ⟨Prod.ext (Except.ok.inj (key.symm.trans key')) (column.symm.trans column'), rfl⟩

theorem Puts.value_eq {label : Option SchemaId} (holds : c.Maintains i label) {id : VertexId} {m : Match}
    {spot : Bytes × Bytes} {value : Bytes} (h : c.Puts i id m spot value) :
    value = Bytes.escapedText id := by
  obtain ⟨-, entry, built, -, rfl⟩ := h
  rw [build_vertex holds] at built
  rw [← Except.ok.inj built]
  simp [IndexEntry.value, IndexEntry.ofParts]

/-- At one place of a LIST index stands one match at most. -/
theorem Puts.match_unique {v : Vertex} (keeps : c.Keeps i v.label) (distinct : v.Distinct) {m n : Match}
    {spot : Bytes × Bytes} {value value' : Bytes} (left : m ∈ Match.ofVertex v i.fields none)
    (right : n ∈ Match.ofVertex v i.fields none) (first : c.Puts i v.id m spot value)
    (second : c.Puts i v.id n spot value') : m = n := by
  obtain ⟨-, entry, built, column, -⟩ := first
  obtain ⟨-, entry', built', column', -⟩ := second
  rw [build_vertex keeps.maintains, keeps.cardinality] at built built'
  rw [← Except.ok.inj built] at column
  rw [← Except.ok.inj built', ← column] at column'
  exact IndexEntry.columnBytes_inj distinct left right
    (by simpa [IndexEntry.column, IndexEntry.ofParts] using column'.symm)

/-- Either vertex that a plan may see gives the updates of the matches that are new. -/
theorem update_of_match (holds : c.Maintains i small.label) (grows : small.Grows big p)
    (either : seen = small ∨ seen = big)
    (planned : c.plan (.vertexProperty seen p kind) space = (.ok set, space')) {m : Match}
    (found : m ∈ Match.ofVertex big i.fields none) :
    m ∈ Match.ofVertex small i.fields none ∨ ∃ x ∈ set.composites, x.index = i.id ∧ x.kind = kind ∧
      c.Puts i small.id m (IndexContent.place x) x.entry.value := by
  obtain old | ⟨inside, new⟩ := (Match.mem_ofVertex_grown grows either holds.fields.2 m).1 found
  · exact .inl old
  have same := grows.of_either either
  obtain ⟨x, there, own, kind_eq, key, entry⟩ := mem_plan_of_match holds.reached.sound holds.known
    holds.maintained (same.2 ▸ holds.applies) planned inside new
  exact .inr ⟨x, there, own, kind_eq, key, x.entry, same.1 ▸ entry, rfl, rfl⟩

theorem match_of_update (holds : c.Maintains i small.label) (grows : small.Grows big p)
    (either : seen = small ∨ seen = big)
    (planned : c.plan (.vertexProperty seen p kind) space = (.ok set, space')) {x : CompositeUpdate}
    (there : x ∈ set.composites) (own : x.index = i.id) :
    x.kind = kind ∧ ∃ m ∈ Match.ofVertex big i.fields none, (∃ y ∈ m, y.relation = p.id) ∧
      c.Puts i small.id m (IndexContent.place x) x.entry.value := by
  have same := grows.of_either either
  obtain ⟨kind_eq, inside, m, new, key, entry⟩ := match_of_mem_plan holds.reached.sound holds.known
    planned there own
  exact ⟨kind_eq, m, (Match.mem_ofVertex_grown grows either holds.fields.2 m).2 (.inr ⟨inside, new⟩),
    Match.relation_of_mem_ofVertex inside new, key, x.entry, same.1 ▸ entry, rfl, rfl⟩

theorem outcome_delete (holds : c.Maintains i small.label) (grows : small.Grows big p)
    (either : seen = small ∨ seen = big)
    (planned : c.plan (.vertexProperty seen p .delete) space = (.ok set, space')) :
    ∀ x ∈ set.composites, x.index = i.id → IndexContent.outcome x = none := by
  intro x there own
  obtain ⟨deletes, -⟩ := match_of_update holds grows either planned there own
  rw [IndexContent.outcome, deletes]

/-- The plan for a property that comes puts the entries that the index has missed. -/
theorem Maintains.mirrors_add (holds : c.Maintains i small.label) (grows : small.Grows big p)
    (either : seen = small ∨ seen = big)
    (planned : c.plan (.vertexProperty seen p .add) space = (.ok set, space'))
    (before : c.Mirrors i small held) : c.Mirrors i big (held.applyAll i.id set.composites) := by
  have outcomes : ∀ x ∈ set.composites, x.index = i.id →
      IndexContent.outcome x = some (Bytes.escapedText small.id) := by
    intro x there own
    obtain ⟨adds, m, -, -, puts⟩ := match_of_update holds grows either planned there own
    rw [IndexContent.outcome, adds, puts.value_eq holds]
  constructor
  · intro m found
    rw [grows.id]
    obtain old | ⟨x, there, own, -, puts⟩ := update_of_match holds grows either planned found
    · obtain ⟨spot, value, puts, stands⟩ := before.complete m old
      refine ⟨spot, value, puts, ?_⟩
      obtain ⟨-, now⟩ | ⟨-, now⟩ := IndexContent.applyAll_cases outcomes held spot
      · rw [now, puts.value_eq holds]
      · rw [now, stands]
    · refine ⟨_, _, puts, ?_⟩
      rw [IndexContent.applyAll_hit ⟨x, there, own, rfl⟩ outcomes, puts.value_eq holds]
  · intro spot value stands
    rw [grows.id]
    obtain ⟨⟨x, there, own, rfl⟩, now⟩ | ⟨-, now⟩ := IndexContent.applyAll_cases outcomes held spot
    · obtain ⟨-, m, found, -, puts⟩ := match_of_update holds grows either planned there own
      rw [now] at stands
      rw [← Option.some.inj stands, ← puts.value_eq holds]
      exact ⟨m, found, puts⟩
    · obtain ⟨m, old, puts⟩ := before.sound spot value (now.symm.trans stands)
      exact ⟨m, (Match.mem_ofVertex_grown grows either holds.fields.2 m).2 (.inl old), puts⟩

/-- The plan for a property that goes takes away just the entries that it took part in, if none of them is
that of a match which stays. -/
theorem Maintains.mirrors_delete (holds : c.Maintains i small.label) (grows : small.Grows big p)
    (apart : ∀ m ∈ Match.ofVertex small i.fields none, ∀ n ∈ Match.ofVertex big i.fields none,
      (∃ y ∈ n, y.relation = p.id) → ∀ spot value value', c.Puts i small.id m spot value →
        ¬c.Puts i small.id n spot value')
    (either : seen = small ∨ seen = big)
    (planned : c.plan (.vertexProperty seen p .delete) space = (.ok set, space'))
    (before : c.Mirrors i big held) : c.Mirrors i small (held.applyAll i.id set.composites) := by
  have outcomes := outcome_delete holds grows either planned
  constructor
  · intro m old
    have found := (Match.mem_ofVertex_grown grows either holds.fields.2 m).2 (.inl old)
    obtain ⟨spot, value, puts, stands⟩ := before.complete m found
    refine ⟨spot, value, grows.id ▸ puts, ?_⟩
    rw [IndexContent.applyAll_miss, stands]
    intro x there own struck
    obtain ⟨-, n, found', takes, puts'⟩ := match_of_update holds grows either planned there own
    rw [struck] at puts'
    exact apart m old n found' takes spot value _ (grows.id ▸ puts) puts'
  · intro spot value stands
    obtain ⟨-, now⟩ | ⟨miss, now⟩ := IndexContent.applyAll_cases outcomes held spot
    · rw [now] at stands
      cases stands
    · obtain ⟨m, found, puts⟩ := before.sound spot value (now.symm.trans stands)
      rw [grows.id] at puts
      obtain old | ⟨x, there, own, -, puts'⟩ := update_of_match holds grows either planned found
      · exact ⟨m, old, puts⟩
      · exact absurd (puts.unique puts').1.symm (miss x there own)

/-- In a LIST index no match shares its place, so a property takes nothing with it that stays. -/
theorem mirrors_delete (keeps : c.Keeps i small.label) (grows : small.Grows big p)
    (distinct : big.Distinct) (fresh : ∀ q ∈ small.properties, q.id ≠ p.id)
    (either : seen = small ∨ seen = big)
    (planned : c.plan (.vertexProperty seen p .delete) space = (.ok set, space'))
    (before : c.Mirrors i big held) : c.Mirrors i small (held.applyAll i.id set.composites) := by
  refine keeps.maintains.mirrors_delete grows ?_ either planned before
  intro m old n found' takes spot value value' puts puts'
  -- what strikes the place of a match is the same match, which then holds the property that goes
  have found := (Match.mem_ofVertex_grown grows either keeps.fields.2 m).2 (.inl old)
  rw [← grows.id] at puts puts'
  obtain rfl := puts.match_unique (grows.label ▸ keeps) distinct found found' puts'
  obtain ⟨y, inside, named⟩ := takes
  obtain ⟨q, on, rfl⟩ := Match.mem_of_mem_ofVertex old y inside
  exact fresh q on named

/-- A vertex without properties has no matches, and needs no entries. -/
theorem mirrors_start {id : VertexId} {label : Option SchemaId} (fields : i.fields ≠ []) :
    c.Mirrors i ⟨id, label, []⟩ .empty := by
  have none_matches : Match.ofVertex ⟨id, label, []⟩ i.fields none = [] := by
    obtain ⟨key, rest, shape⟩ := List.exists_cons_of_ne_nil fields
    rw [shape]
    rfl
  constructor
  · rw [none_matches]
    exact nofun
  · exact nofun

theorem Run.same_vertex {id : VertexId} {label : Option SchemaId} {v : Vertex}
    (run : c.Run i id label v held) : v.id = id ∧ v.label = label ∧ v.Distinct := by
  induction run with
  | start => exact ⟨rfl, rfl, List.nodup_nil⟩
  | add _ fresh _ _ ih => exact ⟨ih.1, ih.2.1, ih.2.2.add fresh⟩
  | @remove v _ _ p _ _ _ _ _ _ _ ih => exact ⟨ih.1, ih.2.1, ih.2.2.remove p.id⟩

/-- After any run of additions and removals, the index holds the entries of just the matches of the
vertex. -/
theorem Run.mirrors {id : VertexId} {label : Option SchemaId} (keeps : c.Keeps i label) {v : Vertex}
    (run : c.Run i id label v held) : c.Mirrors i v held := by
  induction run with
  | start => exact mirrors_start keeps.fields.1
  | @add v seen held p _ _ _ before fresh either planned ih =>
    obtain ⟨-, rfl, -⟩ := before.same_vertex
    exact keeps.maintains.mirrors_add (v.grows_add p) either planned ih
  | @remove v seen held p _ _ _ before on either planned ih =>
    obtain ⟨-, rfl, distinct⟩ := before.same_vertex
    exact mirrors_delete keeps (Vertex.grows_remove distinct on) distinct
      (fun q there => (distinct.mem_remove.1 there).2) either planned ih

/-- An index over the years of vertices, with an entry for each. -/
def bySince : CompositeIndex :=
  ⟨.ofNat 20, "by since", .vertex, [Schema.since.id], .list, .enabled, none⟩

def sinceCatalog : Catalog :=
  ⟨.ofList [(bySince.id, .composite bySince)], [(bySince.name, bySince.id)],
    .ofList [(Schema.since.id, [bySince.id])]⟩

def sincePlanner : Planner :=
  ⟨sinceCatalog, Schema.acquaintance.lookup, .sha256 none, .none, none⟩

theorem sincePlanner_keeps : sincePlanner.Keeps bySince none where
  reached := Catalog.Reachable.empty.create (d := .composite bySince) rfl
  known := rfl
  cardinality := rfl
  maintained := rfl
  applies := rfl

def sinceYear (relation : RelationId) (year : Int64) : VertexProperty :=
  ⟨relation, Schema.since.id, .int year, .empty⟩

/-- Of two properties with one year the first goes again. The entry of the other stays. -/
theorem Run.mirrors_bySince : ∃ held spot,
    sincePlanner.Run bySince "ann" none ⟨"ann", none, [sinceYear "q" 2001]⟩ held ∧
      sincePlanner.Mirrors bySince ⟨"ann", none, [sinceYear "q" 2001]⟩ held ∧
      sincePlanner.Puts bySince "ann" [(sinceYear "q" 2001).matched] spot (Bytes.escapedText "ann") ∧
      held spot = some (Bytes.escapedText "ann") := by
  obtain ⟨set, space, planned⟩ : ∃ set space, sincePlanner.plan (.vertexProperty ⟨"ann", none, []⟩
      (sinceYear "p" 2001) .add) (.new .empty) = (.ok set, space) := ⟨_, _, rfl⟩
  obtain ⟨set', space', planned'⟩ : ∃ set space, sincePlanner.plan
      (.vertexProperty ⟨"ann", none, [sinceYear "p" 2001, sinceYear "q" 2001]⟩ (sinceYear "q" 2001) .add)
      (.new .empty) = (.ok set, space) := ⟨_, _, rfl⟩
  obtain ⟨set'', space'', planned''⟩ : ∃ set space, sincePlanner.plan
      (.vertexProperty ⟨"ann", none, [sinceYear "q" 2001]⟩ (sinceYear "p" 2001) .delete) (.new .empty) =
        (.ok set, space) := ⟨_, _, rfl⟩
  have one := (Run.start (c := sincePlanner) (i := bySince)).add (by simp) (.inl rfl) planned
  have two := one.add (p := sinceYear "q" 2001) (by simp [Vertex.add, sinceYear]) (.inr rfl) planned'
  have run := two.remove (p := sinceYear "p" 2001) (by simp [Vertex.add]) (.inl rfl) planned''
  have mirrors := run.mirrors sincePlanner_keeps
  obtain ⟨spot, value, puts, stands⟩ := mirrors.complete [(sinceYear "q" 2001).matched] (by decide)
  obtain rfl := puts.value_eq sincePlanner_keeps.maintains
  exact ⟨_, spot, run, mirrors, puts, stands⟩

end Planner

end GraphStore
