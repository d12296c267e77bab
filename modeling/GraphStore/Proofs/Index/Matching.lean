import GraphStore.Index.Entry
import GraphStore.Proofs.Bytes.Reading
import Mathlib.Data.List.Nodup

/-!
Matches of a vertex when a property comes or goes. The matches that a property takes part in are those in
which it stands alone for all values of its key, and the columns of a LIST index tell all matches apart.
-/
namespace GraphStore

/-- A property as it takes part in a match. -/
def VertexProperty.matched (p : VertexProperty) : MatchedValue := ⟨p.id, p.key, p.value⟩

/-- A vertex has the properties of another and one more. -/
structure Vertex.Grows (small big : Vertex) (p : VertexProperty) : Prop where
  id : big.id = small.id
  label : big.label = small.label
  properties : ∀ q, q ∈ big.properties ↔ q ∈ small.properties ∨ q = p

theorem Vertex.Grows.of_either {small big seen : Vertex} {p : VertexProperty} (grows : small.Grows big p)
    (either : seen = small ∨ seen = big) : seen.id = small.id ∧ seen.label = small.label := by
  obtain rfl | rfl := either
  · exact ⟨rfl, rfl⟩
  · exact ⟨grows.id, grows.label⟩

namespace Match

theorem mem_choices_cons {candidates : SchemaId → List MatchedValue} {key : SchemaId}
    {rest : List SchemaId} {m : Match} :
    m ∈ choices candidates (key :: rest) ↔
      ∃ x ∈ candidates key, ∃ others ∈ choices candidates rest, m = x :: others := by
  simp only [choices, List.mem_flatMap, List.mem_map, eq_comm]

theorem mem_choices_congr {a b : SchemaId → List MatchedValue} {keys : List SchemaId}
    (same : ∀ key ∈ keys, ∀ x, x ∈ a key ↔ x ∈ b key) (m : Match) :
    m ∈ choices a keys ↔ m ∈ choices b keys := by
  induction keys generalizing m with
  | nil => rfl
  | cons key rest ih =>
    simp only [mem_choices_cons, same key List.mem_cons_self,
      ih (fun k member => same k (List.mem_cons_of_mem _ member))]

/-- Candidates that grow under one key make those choices in which what came stands under that key. -/
theorem mem_choices_grown {small big new : SchemaId → List MatchedValue} {grown : SchemaId}
    {keys : List SchemaId} (distinct : keys.Nodup)
    (elsewhere : ∀ key ≠ grown, ∀ x, (x ∈ big key ↔ x ∈ small key) ∧ (x ∈ new key ↔ x ∈ small key))
    (here : ∀ x, x ∈ big grown ↔ x ∈ small grown ∨ x ∈ new grown) (m : Match) :
    m ∈ choices big keys ↔ m ∈ choices small keys ∨ grown ∈ keys ∧ m ∈ choices new keys := by
  induction keys generalizing m with
  | nil => simp [choices]
  | cons key rest ih =>
    obtain ⟨fresh, distinct⟩ := List.nodup_cons.1 distinct
    by_cases same : key = grown
    · subst same
      have apart (k : SchemaId) (member : k ∈ rest) : k ≠ key := fun e => fresh (e ▸ member)
      have olds := mem_choices_congr fun k member x => (elsewhere k (apart k member) x).1
      have news := mem_choices_congr fun k member x => (elsewhere k (apart k member) x).2
      simp only [mem_choices_cons, here, olds, news, List.mem_cons_self, true_and, or_and_right,
        exists_or]
    · have other : grown ∈ key :: rest ↔ grown ∈ rest := by simp [Ne.symm same]
      have olds (x : MatchedValue) := (elsewhere key same x).1
      have news (x : MatchedValue) := (elsewhere key same x).2
      simp only [mem_choices_cons, olds, news, other, ih distinct]
      constructor
      · rintro ⟨x, there, others, before | ⟨inside, after⟩, rfl⟩
        · exact .inl ⟨x, there, others, before, rfl⟩
        · exact .inr ⟨inside, x, there, others, after, rfl⟩
      · rintro (⟨x, there, others, before, rfl⟩ | ⟨inside, x, there, others, after, rfl⟩)
        · exact ⟨x, there, others, .inl before, rfl⟩
        · exact ⟨x, there, others, .inr ⟨inside, after⟩, rfl⟩

theorem mem_candidates {v : Vertex} {key : SchemaId} {x : MatchedValue} :
    x ∈ candidates v none key ↔ ∃ q ∈ v.properties, q.key = key ∧ x = q.matched := by
  simp only [candidates, Vertex.propertiesOf, List.mem_map, List.mem_filter, decide_eq_true_eq]
  constructor
  · rintro ⟨q, ⟨there, rfl⟩, rfl⟩
    exact ⟨q, there, rfl, rfl⟩
  · rintro ⟨q, there, rfl, rfl⟩
    exact ⟨q, ⟨there, rfl⟩, rfl⟩

theorem candidates_matched {v : Vertex} {p : VertexProperty} {key : SchemaId} :
    candidates v (some p.matched) key =
      if p.key = key then [p.matched] else candidates v none key := rfl

variable {small big seen : Vertex} {p : VertexProperty} {fields : List SchemaId}

/-- The matches with one more property are those without it and those it takes part in. The latter come
out the same with either vertex. -/
theorem mem_ofVertex_grown (grows : small.Grows big p) (either : seen = small ∨ seen = big)
    (distinct : fields.Nodup) (m : Match) :
    m ∈ ofVertex big fields none ↔
      m ∈ ofVertex small fields none ∨ p.key ∈ fields ∧ m ∈ ofVertex seen fields (some p.matched) := by
  have apart (key : SchemaId) (other : key ≠ p.key) (x : MatchedValue) :
      x ∈ candidates big none key ↔ x ∈ candidates small none key := by
    simp only [mem_candidates, grows.properties]
    constructor
    · rintro ⟨q, there | rfl, named, same⟩
      · exact ⟨q, there, named, same⟩
      · exact absurd named.symm other
    · rintro ⟨q, there, named, same⟩
      exact ⟨q, .inl there, named, same⟩
  refine mem_choices_grown distinct (fun key other x => ⟨apart key other x, ?_⟩) (fun x => ?_) m
  · rw [candidates_matched, if_neg (Ne.symm other)]
    obtain rfl | rfl := either
    · rfl
    · exact apart key other x
  · rw [candidates_matched, if_pos rfl, List.mem_singleton]
    simp only [mem_candidates, grows.properties]
    constructor
    · rintro ⟨q, there | rfl, named, same⟩
      · exact .inl ⟨q, there, named, same⟩
      · exact .inr same
    · rintro (⟨q, there, named, same⟩ | same)
      · exact ⟨q, .inl there, named, same⟩
      · exact ⟨p, .inr rfl, rfl, same⟩

/-- What a property takes part in holds its relation. -/
theorem relation_of_mem_ofVertex {v : Vertex} {m : Match} (inside : p.key ∈ fields)
    (h : m ∈ ofVertex v fields (some p.matched)) : ∃ x ∈ m, x.relation = p.id := by
  induction fields generalizing m with
  | nil => cases inside
  | cons key rest ih =>
    obtain ⟨x, there, others, taken, rfl⟩ := mem_choices_cons.1 h
    by_cases same : p.key = key
    · rw [candidates_matched, if_pos same, List.mem_singleton] at there
      exact ⟨x, List.mem_cons_self, there ▸ rfl⟩
    · have later : p.key ∈ rest := by simpa [same] using inside
      obtain ⟨y, member, named⟩ := ih later taken
      exact ⟨y, List.mem_cons_of_mem _ member, named⟩

theorem mem_of_mem_ofVertex {v : Vertex} {m : Match} (h : m ∈ ofVertex v fields none) :
    ∀ x ∈ m, ∃ q ∈ v.properties, x = q.matched := by
  induction fields generalizing m with
  | nil =>
    have alone : m = [] := List.mem_singleton.1 h
    simp [alone]
  | cons key rest ih =>
    obtain ⟨x, there, others, taken, rfl⟩ := mem_choices_cons.1 h
    intro y member
    rcases List.mem_cons.1 member with rfl | later
    · obtain ⟨q, known, -, same⟩ := mem_candidates.1 there
      exact ⟨q, known, same⟩
    · exact ih taken y later

/-- A match has a value for each field, in order. -/
theorem keys_of_mem_ofVertex {v : Vertex} {m : Match} (h : m ∈ ofVertex v fields none) :
    m.map (·.key) = fields := by
  induction fields generalizing m with
  | nil =>
    have alone : m = [] := List.mem_singleton.1 h
    rw [alone, List.map_nil]
  | cons key rest ih =>
    obtain ⟨x, there, others, taken, rfl⟩ := mem_choices_cons.1 h
    obtain ⟨q, -, named, rfl⟩ := mem_candidates.1 there
    rw [List.map_cons, ih taken]
    exact congrArg (· :: rest) named

/-- Every match is one that some property takes part in. -/
theorem mem_ofVertex_iff {v : Vertex} {m : Match} (some_field : fields ≠ []) (distinct : fields.Nodup) :
    m ∈ ofVertex v fields none ↔
      ∃ p ∈ v.properties, p.key ∈ fields ∧ m ∈ ofVertex v fields (some p.matched) := by
  constructor
  · intro h
    cases fields with
    | nil => exact absurd rfl some_field
    | cons key rest =>
      obtain ⟨x, there, others, taken, rfl⟩ := mem_choices_cons.1 h
      obtain ⟨p, on, named, rfl⟩ := mem_candidates.1 there
      refine ⟨p, on, List.mem_cons.2 (.inl named), mem_choices_cons.2 ⟨p.matched, ?_, others, ?_, rfl⟩⟩
      · rw [candidates_matched, if_pos named]
        exact List.mem_singleton.2 rfl
      · refine (mem_choices_congr (fun k member x => ?_) others).1 taken
        have apart : p.key ≠ k := fun same =>
          (List.nodup_cons.1 distinct).1 ((named.symm.trans same) ▸ member)
        rw [candidates_matched, if_neg apart]
  · rintro ⟨p, on, inside, taken⟩
    -- a vertex grows into itself by a property that it has
    have grows : v.Grows v p := ⟨rfl, rfl, fun q => ⟨.inl, fun either => either.elim id (· ▸ on)⟩⟩
    exact (mem_ofVertex_grown grows (.inl rfl) distinct m).2 (.inr ⟨inside, taken⟩)

end Match

/-- The properties of a vertex are told apart by their ids. -/
def Vertex.Distinct (v : Vertex) : Prop := (v.properties.map (·.id)).Nodup

theorem VertexProperty.mem_eraseP_id {l : List VertexProperty} (distinct : (l.map (·.id)).Nodup)
    {id : RelationId} {q : VertexProperty} : q ∈ l.eraseP (·.id = id) ↔ q ∈ l ∧ q.id ≠ id := by
  induction l with
  | nil => simp
  | cons first rest ih =>
    rw [List.map_cons, List.nodup_cons] at distinct
    by_cases same : first.id = id
    · have apart : ∀ q ∈ rest, q.id ≠ id := fun q there named =>
        distinct.1 (List.mem_map.2 ⟨q, there, named.trans same.symm⟩)
      rw [List.eraseP_cons_of_pos (by simpa using same), List.mem_cons]
      constructor
      · exact fun there => ⟨.inr there, apart q there⟩
      · rintro ⟨rfl | there, other⟩
        · exact absurd same other
        · exact there
    · rw [List.eraseP_cons_of_neg (by simpa using same), List.mem_cons, ih distinct.2, List.mem_cons]
      constructor
      · rintro (rfl | ⟨there, other⟩)
        · exact ⟨.inl rfl, same⟩
        · exact ⟨.inr there, other⟩
      · rintro ⟨rfl | there, other⟩
        · exact .inl rfl
        · exact .inr ⟨there, other⟩

namespace Vertex.Distinct

variable {v : Vertex} {p q : VertexProperty}

theorem eq_of_id (distinct : v.Distinct) (left : p ∈ v.properties) (right : q ∈ v.properties)
    (same : p.id = q.id) : p = q := List.inj_on_of_nodup_map distinct left right same

theorem add (distinct : v.Distinct) (fresh : ∀ q ∈ v.properties, q.id ≠ p.id) : (v.add p).Distinct := by
  simp only [Vertex.Distinct, Vertex.add, List.map_append, List.map_singleton] at *
  refine List.nodup_append.2 ⟨distinct, List.nodup_singleton _, fun a there b only => ?_⟩
  obtain ⟨q, on, rfl⟩ := List.mem_map.1 there
  rw [List.mem_singleton.1 only]
  exact fresh q on

theorem mem_remove (distinct : v.Distinct) {id : RelationId} :
    q ∈ (v.remove id).2.properties ↔ q ∈ v.properties ∧ q.id ≠ id :=
  VertexProperty.mem_eraseP_id distinct

theorem remove (distinct : v.Distinct) (id : RelationId) : (v.remove id).2.Distinct :=
  distinct.sublist (List.eraseP_sublist.map _)

end Vertex.Distinct

theorem Vertex.grows_add (v : Vertex) (p : VertexProperty) : v.Grows (v.add p) p :=
  ⟨rfl, rfl, fun q => by simp [Vertex.add]⟩

theorem Vertex.grows_remove {v : Vertex} {p : VertexProperty} (distinct : v.Distinct)
    (on : p ∈ v.properties) : (v.remove p.id).2.Grows v p := by
  refine ⟨rfl, rfl, fun q => ?_⟩
  rw [distinct.mem_remove]
  constructor
  · intro there
    by_cases same : q.id = p.id
    · exact .inr (distinct.eq_of_id there on same)
    · exact .inl ⟨there, same⟩
  · rintro (⟨there, -⟩ | rfl)
    · exact there
    · exact on

/-- The column of a LIST index says which relations matched, and so which values. -/
theorem IndexEntry.columnBytes_inj {v : Vertex} (distinct : v.Distinct) {fields : List SchemaId}
    {m n : Match} {e : Element} (left : m ∈ Match.ofVertex v fields none)
    (right : n ∈ Match.ofVertex v fields none)
    (h : columnBytes .list m e = columnBytes .list n e) : m = n := by
  have relations : m.flatMap (fun x => Bytes.escapedText x.relation) =
      n.flatMap (fun x => Bytes.escapedText x.relation) := by
    simpa [columnBytes] using h
  clear h
  induction fields generalizing m n with
  | nil => rw [List.mem_singleton.1 left, List.mem_singleton.1 right]
  | cons key rest ih =>
    obtain ⟨x, there, others, taken, rfl⟩ := Match.mem_choices_cons.1 left
    obtain ⟨x', there', others', taken', rfl⟩ := Match.mem_choices_cons.1 right
    obtain ⟨p, on, -, rfl⟩ := Match.mem_candidates.1 there
    obtain ⟨q, on', -, rfl⟩ := Match.mem_candidates.1 there'
    rw [List.flatMap_cons, List.flatMap_cons] at relations
    obtain ⟨named, relations⟩ := Bytes.escapedText_append_inj relations
    rw [distinct.eq_of_id on on' named, ih taken taken' relations]

end GraphStore
