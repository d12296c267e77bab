import GraphStore.Proofs.Index.CompositeKey
import GraphStore.Proofs.Index.Maintenance

/-!
Entries that several matches share. Only the column of a LIST index says which relations matched; in a SINGLE
or SET index all matches of a vertex with the same values have one entry. A removal takes that entry away,
and does not ask whether another match still stands for it. So the index holds what the vertex has as long
as no property goes that another one of its key repeats.
-/
namespace GraphStore

/-- No other property of the vertex has the key, and a value that is stored alike. -/
def VertexProperty.IsAlone (p : VertexProperty) (v : Vertex) : Prop :=
  ∀ q ∈ v.properties, q.key = p.key → q.value.kept .compact = p.value.kept .compact → q.id = p.id

namespace Match

variable {small big v : Vertex} {p q : VertexProperty} {fields : List SchemaId} {m n : Match}

/-- What a key keeps of a match. -/
def kept (m : Match) : List Value := (m.map (·.value)).map (·.kept .compact)

theorem kept_cons (x : MatchedValue) (m : Match) : kept (x :: m) = x.value.kept .compact :: kept m := rfl

/-- The match with one property in the place of another. -/
def swap (p q : VertexProperty) (m : Match) : Match :=
  m.map fun x => if x = p.matched then q.matched else x

theorem kept_swap (alike : q.value.kept .compact = p.value.kept .compact) (m : Match) :
    kept (m.swap p q) = kept m := by
  induction m with
  | nil => rfl
  | cons x rest ih =>
    have here : (if x = p.matched then q.matched else x).value.kept .compact = x.value.kept .compact := by
      split
      · next same => rw [same]; exact alike
      · rfl
    rw [swap, List.map_cons, kept_cons, kept_cons, here]
    exact congrArg _ ih

/-- With a property of the same key in its place, a match does without the one that goes. -/
theorem swap_mem (grows : small.Grows big p) (there : q ∈ small.properties) (same : q.key = p.key)
    (found : n ∈ ofVertex big fields none) : n.swap p q ∈ ofVertex small fields none := by
  induction fields generalizing n with
  | nil =>
    obtain rfl := List.mem_singleton.1 found
    exact List.mem_singleton.2 rfl
  | cons key rest ih =>
    obtain ⟨x, candidate, others, taken, rfl⟩ := mem_choices_cons.1 found
    obtain ⟨r, on, rfl, rfl⟩ := mem_candidates.1 candidate
    refine mem_choices_cons.2 ⟨_, ?_, _, ih taken, rfl⟩
    by_cases goes : r.matched = p.matched
    · have key : r.key = p.key := congrArg MatchedValue.key goes
      exact mem_candidates.2 ⟨q, there, same.trans key.symm, if_pos goes⟩
    · have stays : r ∈ small.properties := by
        obtain stays | rfl := (grows.properties r).1 on
        · exact stays
        · exact absurd rfl goes
      exact mem_candidates.2 ⟨r, stays, rfl, if_neg goes⟩

/-- Of two matches that keep the same, one has some property where the other has a given one. -/
theorem exists_alike (left : m ∈ ofVertex small fields none) (right : n ∈ ofVertex big fields none)
    (same : kept m = kept n) (inside : p.matched ∈ n) :
    ∃ q ∈ small.properties, q.key = p.key ∧ q.value.kept .compact = p.value.kept .compact := by
  induction fields generalizing m n with
  | nil =>
    obtain rfl := List.mem_singleton.1 right
    cases inside
  | cons key rest ih =>
    obtain ⟨x, candidate, others, taken, rfl⟩ := mem_choices_cons.1 left
    obtain ⟨y, candidate', others', taken', rfl⟩ := mem_choices_cons.1 right
    obtain ⟨head, tail⟩ := List.cons.inj same
    rcases List.mem_cons.1 inside with rfl | later
    · obtain ⟨q, on, named, rfl⟩ := mem_candidates.1 candidate
      obtain ⟨r, -, named', matched⟩ := mem_candidates.1 candidate'
      have key : p.key = r.key := congrArg MatchedValue.key matched
      exact ⟨q, on, named.trans (named'.symm.trans key.symm), head⟩
    · exact ih taken taken' tail later

theorem matched_mem_of_relation (distinct : v.Distinct) (on : p ∈ v.properties)
    (found : m ∈ ofVertex v fields none) : (∃ x ∈ m, x.relation = p.id) ↔ p.matched ∈ m := by
  constructor
  · rintro ⟨x, inside, named⟩
    obtain ⟨q, known, rfl⟩ := mem_of_mem_ofVertex found x inside
    rwa [distinct.eq_of_id known on named] at inside
  · exact fun inside => ⟨_, inside, rfl⟩

end Match

/-- Unless it is that of a LIST index, a column does not say how an element matched. -/
theorem IndexEntry.columnBytes_of_shared {cardinality : Cardinality} (shared : cardinality ≠ .list)
    (m n : Match) (e : Element) : columnBytes cardinality m e = columnBytes cardinality n e := by
  rw [columnBytes, columnBytes, if_neg shared, if_neg shared]

namespace Planner

variable {c : Planner} {i : CompositeIndex} {small big seen : Vertex} {p : VertexProperty}
variable {held : IndexContent} {space space' : FieldSpace} {set : UpdateSet} {m n : Match}
variable {spot : Bytes × Bytes} {value value' : Bytes}

/-- Matches at one place keep the same values. -/
theorem Puts.kept_eq {id : VertexId} (wide : c.keys.IsWide) (left : c.Puts i id m spot value)
    (right : c.Puts i id n spot value') : m.kept = n.kept :=
  KeyCodec.kept_of_build_eq wide left.key right.key

/-- Unless the index is a LIST, matches that keep the same values stand at one place. -/
theorem Puts.of_kept_eq {id : VertexId} (shared : i.cardinality ≠ .list) (same : m.kept = n.kept)
    (puts : c.Puts i id m spot value) : c.Puts i id n spot value := by
  obtain ⟨entry, built, stands⟩ := puts.entry
  refine ⟨KeyCodec.build_of_kept_eq same puts.key, entry, ?_, stands⟩
  rw [← built, IndexEntry.build, IndexEntry.build, IndexEntry.columnBytes_of_shared shared n m]

/-- A property that goes takes away the entries of all matches it is in, whatever else stands for them. -/
theorem Maintains.delete_strikes (holds : c.Maintains i small.label) (grows : small.Grows big p)
    (fresh : ∀ q ∈ small.properties, q.id ≠ p.id) (either : seen = small ∨ seen = big)
    (planned : c.plan (.vertexProperty seen p .delete) space = (.ok set, space'))
    (found : n ∈ Match.ofVertex big i.fields none) (inside : p.matched ∈ n)
    (puts : c.Puts i small.id n spot value) : held.applyAll i.id set.composites spot = none := by
  obtain old | ⟨x, there, own, -, puts'⟩ := update_of_match holds grows either planned found
  · obtain ⟨q, on, matched⟩ := Match.mem_of_mem_ofVertex old _ inside
    exact absurd (congrArg MatchedValue.relation matched).symm (fresh q on)
  · exact IndexContent.applyAll_hit ⟨x, there, own, (puts.unique puts').1.symm⟩
      (outcome_delete holds grows either planned)

/-- What goes with a property that is alone shares no place with what stays. -/
theorem Puts.apart_of_alone {id : VertexId} (wide : c.keys.IsWide) (grows : small.Grows big p)
    (fresh : ∀ q ∈ small.properties, q.id ≠ p.id) (alone : p.IsAlone big)
    (old : m ∈ Match.ofVertex small i.fields none) (found : n ∈ Match.ofVertex big i.fields none)
    (inside : p.matched ∈ n) (puts : c.Puts i id m spot value) : ¬c.Puts i id n spot value' := by
  intro puts'
  obtain ⟨q, on, key, alike⟩ := Match.exists_alike old found (puts.kept_eq wide puts') inside
  exact fresh q on (alone q ((grows.properties q).2 (.inl on)) key alike)

/-- The plan for a property that goes leaves just what the vertex still has, if the property is alone or in no
match. -/
theorem Maintains.mirrors_delete_alone (holds : c.Maintains i small.label) (wide : c.keys.IsWide)
    (grows : small.Grows big p) (distinct : big.Distinct) (fresh : ∀ q ∈ small.properties, q.id ≠ p.id)
    (alone : ∀ n ∈ Match.ofVertex big i.fields none, p.matched ∈ n → p.IsAlone big)
    (either : seen = small ∨ seen = big)
    (planned : c.plan (.vertexProperty seen p .delete) space = (.ok set, space'))
    (before : c.Mirrors i big held) : c.Mirrors i small (held.applyAll i.id set.composites) := by
  have on : p ∈ big.properties := (grows.properties p).2 (.inr rfl)
  refine holds.mirrors_delete grows ?_ either planned before
  intro m old n found takes spot value value' puts
  have inside := (Match.matched_mem_of_relation distinct on found).1 takes
  exact puts.apart_of_alone wide grows fresh (alone n found inside) old found inside

/-- In an index that is no LIST, only such removals leave just what the vertex still has. -/
theorem Maintains.mirrors_delete_iff (holds : c.Maintains i small.label) (wide : c.keys.IsWide)
    (shared : i.cardinality ≠ .list) (grows : small.Grows big p) (distinct : big.Distinct)
    (fresh : ∀ q ∈ small.properties, q.id ≠ p.id) (either : seen = small ∨ seen = big)
    (planned : c.plan (.vertexProperty seen p .delete) space = (.ok set, space'))
    (before : c.Mirrors i big held) :
    c.Mirrors i small (held.applyAll i.id set.composites) ↔
      ∀ n ∈ Match.ofVertex big i.fields none, p.matched ∈ n → p.IsAlone big := by
  constructor
  · intro after n found inside q on key alike
    by_contra other
    have stays : q ∈ small.properties := by
      obtain stays | rfl := (grows.properties q).1 on
      · exact stays
      · exact absurd rfl other
    obtain ⟨spot, value, puts, stands⟩ := after.complete _ (Match.swap_mem grows stays key found)
    -- the match that stays stands where the removal has struck the one that goes
    have struck := puts.of_kept_eq shared (Match.kept_swap alike n)
    rw [holds.delete_strikes grows fresh either planned found inside struck] at stands
    cases stands
  · exact fun alone => holds.mirrors_delete_alone wide grows distinct fresh alone either planned before

end Planner

/-- A run in which no property goes while it is in a match and another one of its key is stored alike. -/
inductive Planner.SparingRun (c : Planner) (i : CompositeIndex) (id : VertexId)
    (label : Option SchemaId) : Vertex → IndexContent → Prop where
  | start : SparingRun c i id label ⟨id, label, []⟩ .empty
  | add {v seen : Vertex} {held : IndexContent} {p : VertexProperty} {space space' : FieldSpace}
      {set : UpdateSet} : SparingRun c i id label v held → (∀ q ∈ v.properties, q.id ≠ p.id) →
      seen = v ∨ seen = v.add p → c.plan (.vertexProperty seen p .add) space = (.ok set, space') →
      SparingRun c i id label (v.add p) (held.applyAll i.id set.composites)
  | remove {v seen : Vertex} {held : IndexContent} {p : VertexProperty} {space space' : FieldSpace}
      {set : UpdateSet} : SparingRun c i id label v held → p ∈ v.properties →
      (∀ m ∈ Match.ofVertex v i.fields none, p.matched ∈ m → p.IsAlone v) →
      seen = (v.remove p.id).2 ∨ seen = v →
      c.plan (.vertexProperty seen p .delete) space = (.ok set, space') →
      SparingRun c i id label (v.remove p.id).2 (held.applyAll i.id set.composites)

namespace Planner

variable {c : Planner} {i : CompositeIndex} {id : VertexId} {label : Option SchemaId} {v : Vertex}
variable {held : IndexContent}

theorem SparingRun.run (sparing : c.SparingRun i id label v held) : c.Run i id label v held := by
  induction sparing with
  | start => exact .start
  | add _ fresh either planned ih => exact ih.add fresh either planned
  | remove _ on _ either planned ih => exact ih.remove on either planned

/-- After any such run an index of any cardinality holds the entries of just the matches of the vertex. -/
theorem SparingRun.holds_matches (holds : c.Maintains i label) (wide : c.keys.IsWide)
    (sparing : c.SparingRun i id label v held) : c.Mirrors i v held := by
  induction sparing with
  | start => exact mirrors_start holds.fields.1
  | @add v _ _ p _ _ _ before _ either planned ih =>
    obtain ⟨-, rfl, -⟩ := before.run.same_vertex
    exact holds.mirrors_add (v.grows_add p) either planned ih
  | @remove v _ _ p _ _ _ before on alone either planned ih =>
    obtain ⟨-, rfl, distinct⟩ := before.run.same_vertex
    have holds : c.Maintains i (v.remove p.id).2.label := holds
    exact holds.mirrors_delete_alone wide (Vertex.grows_remove distinct on) distinct
      (fun q there => (distinct.mem_remove.1 there).2) alone either planned ih

/-- A year of a visit; a vertex may have one twice. -/
def visited : RelationType :=
  { RelationType.propertyKey (.ofNat 12) "visited" .int with multiplicity := .multi }

def travels : Schema := ⟨.ofList [(visited.id, visited)], .empty⟩

/-- An index over the years of visits, with one entry for each vertex and year. -/
def byVisit : CompositeIndex := ⟨.ofNat 22, "by visit", .vertex, [visited.id], .set, .enabled, none⟩

def visitPlanner : Planner :=
  ⟨⟨.ofList [(byVisit.id, .composite byVisit)], [(byVisit.name, byVisit.id)],
    .ofList [(visited.id, [byVisit.id])]⟩, travels.lookup, .sha256 none, .none, none⟩

theorem visitPlanner_maintains : visitPlanner.Maintains byVisit none where
  reached := Catalog.Reachable.empty.create (d := .composite byVisit) rfl
  known := rfl
  maintained := rfl
  applies := rfl

def visit (relation : RelationId) (year : Int64) : VertexProperty := ⟨relation, visited.id, .int year, .empty⟩

/-- What a visit that comes or goes makes of a set, when Ann has these. -/
def VisitPlanned (visits : List VertexProperty) (p : VertexProperty) (kind : UpdateKind) (set : UpdateSet)
    (space : FieldSpace) : Prop :=
  visitPlanner.plan (.vertexProperty ⟨"ann", none, visits⟩ p kind) (.new .empty) = (.ok set, space)

theorem SparingRun.holds_matches_twoVisits : ∃ held,
    visitPlanner.SparingRun byVisit "ann" none ⟨"ann", none, [visit "q" 2005]⟩ held ∧
      visitPlanner.Mirrors byVisit ⟨"ann", none, [visit "q" 2005]⟩ held := by
  obtain ⟨_, _, first⟩ : ∃ set space, VisitPlanned [] (visit "p" 2001) .add set space := ⟨_, _, rfl⟩
  obtain ⟨_, _, second⟩ : ∃ set space,
    VisitPlanned [visit "p" 2001] (visit "q" 2005) .add set space := ⟨_, _, rfl⟩
  obtain ⟨_, _, third⟩ : ∃ set space,
    VisitPlanned [visit "q" 2005] (visit "p" 2001) .delete set space := ⟨_, _, rfl⟩
  have started : visitPlanner.SparingRun byVisit "ann" none ⟨"ann", none, []⟩ .empty := .start
  have one := started.add (by simp) (.inl rfl) first
  have two := one.add (by simp [Vertex.add, visit]) (.inl rfl) second
  have alone : (visit "p" 2001).IsAlone ⟨"ann", none, [visit "p" 2001, visit "q" 2005]⟩ := by
    simp [VertexProperty.IsAlone, visit, Value.kept]
  have left := two.remove List.mem_cons_self (fun _ _ _ => alone) (.inl rfl) third
  exact ⟨_, left, left.holds_matches visitPlanner_maintains (KeyCodec.sha256_isWide none)⟩

/-- Ann visits twice in a year, and one of the visits goes. The index then holds nothing where the other one
stands. -/
theorem Run.visitTwice_loses :
    Schema.Reachable travels ∧ visitPlanner.Maintains byVisit none ∧ byVisit.cardinality = .set ∧
      ∃ held, visitPlanner.Run byVisit "ann" none ⟨"ann", none, [visit "q" 2001]⟩ held ∧
        ∃ m ∈ Match.ofVertex ⟨"ann", none, [visit "q" 2001]⟩ byVisit.fields none, ∃ spot value,
          visitPlanner.Puts byVisit "ann" m spot value ∧ held spot = none := by
  obtain ⟨_, _, first⟩ : ∃ set space, VisitPlanned [] (visit "p" 2001) .add set space := ⟨_, _, rfl⟩
  obtain ⟨_, _, second⟩ : ∃ set space,
    VisitPlanned [visit "p" 2001] (visit "q" 2001) .add set space := ⟨_, _, rfl⟩
  obtain ⟨_, _, third⟩ : ∃ set space,
    VisitPlanned [visit "q" 2001] (visit "p" 2001) .delete set space := ⟨_, _, rfl⟩
  have started : visitPlanner.Run byVisit "ann" none ⟨"ann", none, []⟩ .empty := .start
  have one := started.add (by simp) (.inl rfl) first
  have two := one.add (by simp [Vertex.add, visit]) (.inl rfl) second
  have left := two.remove List.mem_cons_self (.inl rfl) third
  have known : Schema.empty.addType visited = .ok travels := rfl
  refine ⟨Schema.Reachable.empty.addType known, visitPlanner_maintains, rfl, _, left,
    [(visit "q" 2001).matched], List.mem_singleton.2 rfl, ?_⟩
  obtain ⟨key, made⟩ : ∃ key, visitPlanner.keys.ofMatch visitPlanner.types byVisit
      [(visit "p" 2001).matched] = .ok key := ⟨_, rfl⟩
  obtain ⟨column, value, gone⟩ : ∃ column value,
      visitPlanner.Puts byVisit "ann" [(visit "p" 2001).matched] (key, column) value :=
    ⟨_, _, made, _, rfl, rfl, rfl⟩
  have same : Match.kept [(visit "p" 2001).matched] = Match.kept [(visit "q" 2001).matched] := rfl
  refine ⟨_, _, gone.of_kept_eq (by decide) same, ?_⟩
  have grows : Vertex.Grows ⟨"ann", none, [visit "q" 2001]⟩
      ⟨"ann", none, [visit "p" 2001, visit "q" 2001]⟩ (visit "p" 2001) := ⟨rfl, rfl, by simp [or_comm]⟩
  exact visitPlanner_maintains.delete_strikes grows (by simp [visit]) (.inl rfl) third
    List.mem_cons_self List.mem_cons_self gone

end Planner

end GraphStore
