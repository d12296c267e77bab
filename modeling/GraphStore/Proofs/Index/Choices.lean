import GraphStore.Proofs.Index.Matching
import Mathlib.Algebra.Group.Nat.Defs
import Mathlib.Data.List.Perm.Basic

/-!
The matches of a vertex are a product. Each match stands at a list of places, one for each field: the place
of its value among the candidates of the field. The lists that stay below the numbers of candidates, in
lexicographic order, are the places of all matches, so no choice is left out and none comes twice. A property
that comes adds the matches it takes part in, each once.
-/
namespace GraphStore

namespace Match

/-- The lists of numbers that stay below some bounds, the last number counting fastest. -/
def placesBelow : List Nat → List (List Nat)
  | [] => [[]]
  | bound :: bounds => (List.range bound).flatMap fun n => (placesBelow bounds).map (n :: ·)

theorem mem_placesBelow {bounds places : List Nat} :
    places ∈ placesBelow bounds ↔ List.Forall₂ (· < ·) places bounds := by
  induction bounds generalizing places with
  | nil => simp [placesBelow]
  | cons bound bounds ih =>
    simp only [placesBelow, List.mem_flatMap, List.mem_range, List.mem_map, List.forall₂_cons_right_iff, ih]
    constructor
    · rintro ⟨n, small, rest, below, rfl⟩
      exact ⟨n, rest, small, below, rfl⟩
    · rintro ⟨n, rest, small, below, rfl⟩
      exact ⟨n, small, rest, below, rfl⟩

theorem pairwise_placesBelow (bounds : List Nat) :
    (placesBelow bounds).Pairwise (List.Lex (· < ·)) := by
  induction bounds with
  | nil => exact List.pairwise_singleton _ _
  | cons bound bounds ih =>
    refine List.pairwise_flatMap.2 ⟨fun n _ => ?_, ?_⟩
    · -- one first number: the rest decides
      exact List.pairwise_map.2 (ih.imp fun earlier => .cons earlier)
    · refine List.pairwise_lt_range.imp fun {m n} less x left y right => ?_
      obtain ⟨_, -, rfl⟩ := List.mem_map.1 left
      obtain ⟨_, -, rfl⟩ := List.mem_map.1 right
      exact .rel less

section Product

variable {candidates : SchemaId → List MatchedValue} {keys : List SchemaId}

/-- The match has, for each key, the candidate at its place. -/
def TakenAt (candidates : SchemaId → List MatchedValue) (keys : List SchemaId) (places : List Nat)
    (m : Match) : Prop :=
  List.zipWith (fun key n => (candidates key)[n]?) keys places = m.map some

theorem takenAt_cons {key : SchemaId} {n : Nat} {x : MatchedValue} {places : List Nat} {m : Match}
    (there : (candidates key)[n]? = some x) (others : TakenAt candidates keys places m) :
    TakenAt candidates (key :: keys) (n :: places) (x :: m) := by
  rw [TakenAt, List.zipWith_cons_cons, there, others, List.map_cons]

/-- Numbers up to the length of a list stand for its items. -/
theorem forall₂_range_getElem? {α : Type} (l : List α) :
    List.Forall₂ (fun n a => l[n]? = some a) (List.range l.length) l := by
  refine List.forall₂_iff_get.2 ⟨List.length_range, fun n _ inside => ?_⟩
  rw [List.get_eq_getElem, List.getElem_range, List.get_eq_getElem, List.getElem?_eq_getElem inside]

/-- Place by place, the choices are those at the places below the numbers of candidates. -/
theorem forall₂_takenAt (candidates : SchemaId → List MatchedValue) (keys : List SchemaId) :
    List.Forall₂ (TakenAt candidates keys)
      (placesBelow (keys.map fun key => (candidates key).length)) (choices candidates keys) := by
  induction keys with
  | nil => exact .cons rfl .nil
  | cons key keys ih =>
    refine List.rel_flatMap (forall₂_range_getElem? (candidates key)) fun n x there => ?_
    rw [List.forall₂_map_left_iff, List.forall₂_map_right_iff]
    exact ih.imp fun _ _ others => takenAt_cons there others

theorem length_choices (candidates : SchemaId → List MatchedValue) (keys : List SchemaId) :
    (choices candidates keys).length = (keys.map fun key => (candidates key).length).prod := by
  induction keys with
  | nil => rfl
  | cons key keys ih => simp [choices, List.length_flatMap, ih]

theorem choices_eq_nil_iff : choices candidates keys = [] ↔ ∃ key ∈ keys, candidates key = [] := by
  induction keys with
  | nil => simp [choices]
  | cons key keys ih =>
    rw [List.exists_mem_cons_iff, ← ih, choices, List.flatMap_eq_nil_iff]
    cases candidates key with
    | nil => simp
    | cons x others => simpa using fun none _ _ => none

end Product

section Growth

variable {small big new : SchemaId → List MatchedValue} {grown : SchemaId} {keys : List SchemaId}

theorem choices_perm (same : ∀ key ∈ keys, (big key).Perm (small key)) :
    (choices big keys).Perm (choices small keys) := by
  induction keys with
  | nil => exact .refl _
  | cons key keys ih =>
    obtain ⟨first, others⟩ := List.forall_mem_cons.1 same
    exact first.flatMap fun x _ => (ih others).map (x :: ·)

/-- What comes under one key makes the choices in which it stands for all candidates of the key. -/
theorem choices_perm_append (distinct : keys.Nodup) (inside : grown ∈ keys)
    (olds : ∀ key ≠ grown, (big key).Perm (small key)) (news : ∀ key ≠ grown, (new key).Perm (small key))
    (here : (big grown).Perm (small grown ++ new grown)) :
    (choices big keys).Perm (choices small keys ++ choices new keys) := by
  induction keys with
  | nil => cases inside
  | cons key keys ih =>
    obtain ⟨fresh, distinct⟩ := List.nodup_cons.1 distinct
    by_cases same : key = grown
    · -- the other keys have the same candidates, so the choices differ in the first value only
      subst same
      have apart (k : SchemaId) (member : k ∈ keys) : k ≠ key := fun e => fresh (e ▸ member)
      have olds := choices_perm fun k member => olds k (apart k member)
      have news := choices_perm fun k member => news k (apart k member)
      calc (choices big (key :: keys)).Perm
            ((small key ++ new key).flatMap fun x => (choices small keys).map (x :: ·)) :=
          here.flatMap fun x _ => olds.map (x :: ·)
        _ = choices small (key :: keys) ++
            (new key).flatMap fun x => (choices small keys).map (x :: ·) := List.flatMap_append
        List.Perm _ (choices small (key :: keys) ++ choices new (key :: keys)) :=
          .append_left _ (.flatMap_left _ fun x _ => news.symm.map (x :: ·))
    · have later : grown ∈ keys := (List.mem_cons.1 inside).resolve_left (Ne.symm same)
      have split := ih distinct later
      calc (choices big (key :: keys)).Perm ((small key).flatMap fun x =>
            (choices small keys).map (x :: ·) ++ (choices new keys).map (x :: ·)) :=
          (olds key same).flatMap fun x _ => (split.map (x :: ·)).trans (.of_eq List.map_append)
        List.Perm _ (choices small (key :: keys) ++
            (small key).flatMap fun x => (choices new keys).map (x :: ·)) :=
          (List.flatMap_append_perm _ _ _).symm
        List.Perm _ (choices small (key :: keys) ++ choices new (key :: keys)) :=
          .append_left _ ((news key same).symm.flatMap_right _)

end Growth

section Vertices

variable {small big : Vertex} {p : VertexProperty} {key : SchemaId}

theorem candidates_perm (added : big.properties.Perm (p :: small.properties)) (other : key ≠ p.key) :
    (candidates big none key).Perm (candidates small none key) := by
  have kept := added.filter (fun q => decide (q.key = key))
  rw [List.filter_cons_of_neg (by simpa using Ne.symm other)] at kept
  exact kept.map _

theorem candidates_perm_append (added : big.properties.Perm (p :: small.properties)) :
    (candidates big none p.key).Perm (candidates small none p.key ++ [p.matched]) := by
  have kept := added.filter (fun q => decide (q.key = p.key))
  rw [List.filter_cons_of_pos (by simp)] at kept
  have matched := kept.map fun q => (⟨q.id, p.key, q.value⟩ : MatchedValue)
  exact matched.trans (List.perm_append_singleton _ _).symm

/-- A property that comes adds the matches it takes part in. They are the same matches whether it is on the
vertex already or not. -/
theorem ofVertex_perm_append {fields : List SchemaId} (distinct : fields.Nodup) (inside : p.key ∈ fields)
    (added : big.properties.Perm (p :: small.properties)) {seen : Vertex} (either : seen = small ∨ seen = big) :
    (ofVertex big fields none).Perm (ofVertex small fields none ++ ofVertex seen fields (some p.matched)) := by
  refine choices_perm_append distinct inside (fun key other => candidates_perm added other)
    (fun key other => ?_) ?_
  · rw [candidates_matched, if_neg (Ne.symm other)]
    obtain rfl | rfl := either
    · exact .refl _
    · exact candidates_perm added other
  · rw [candidates_matched, if_pos rfl]
    exact candidates_perm_append added

/-- Without a substitute for its key, a key's candidates are the relations and values of its properties. -/
theorem candidates_of_free (v : Vertex) {substitute : Option MatchedValue}
    (free : ∀ s, substitute = some s → s.key ≠ key) : candidates v substitute key =
      (v.properties.filter (·.key = key)).map fun p => ⟨p.id, key, p.value⟩ := by
  cases substitute with
  | none => rfl
  | some s => exact if_neg (free s rfl)

theorem candidates_substituted (v : Vertex) (s : MatchedValue) : candidates v (some s) s.key = [s] :=
  if_pos rfl

/-- Matching a vertex is a product. The candidates of a key are the relations and values of its properties, in
their order, or the substitute alone if it is for the key. The matches are those at the places below the numbers of
candidates, in lexicographic order, each once; and a property that comes adds, as a multiset, the matches in which
it is substituted for the values of its key. -/
theorem ofVertex_product (v : Vertex) {fields : List SchemaId} (distinct : fields.Nodup)
    (substitute : Option MatchedValue) :
    ((∀ key, (∀ s, substitute = some s → s.key ≠ key) → candidates v substitute key =
        (v.properties.filter (·.key = key)).map fun p => ⟨p.id, key, p.value⟩) ∧
      ∀ s, substitute = some s → candidates v substitute s.key = [s]) ∧
    (∃ places : List (List Nat), places.Pairwise (List.Lex (· < ·)) ∧
        (∀ p, p ∈ places ↔
          List.Forall₂ (· < ·) p (fields.map fun key => (candidates v substitute key).length)) ∧
        List.Forall₂ (TakenAt (candidates v substitute) fields) places (ofVertex v fields substitute)) ∧
      (ofVertex v fields substitute).length =
        (fields.map fun key => (candidates v substitute key).length).prod ∧
      (ofVertex v fields substitute = [] ↔ ∃ key ∈ fields, candidates v substitute key = []) ∧
      ∀ (p : VertexProperty) (big seen : Vertex), p.key ∈ fields →
        big.properties.Perm (p :: v.properties) → (seen = v ∨ seen = big) →
          (ofVertex big fields none).Perm
            (ofVertex v fields none ++ ofVertex seen fields (some p.matched)) := by
  refine ⟨⟨fun key => candidates_of_free v, ?_⟩,
    ⟨placesBelow _, pairwise_placesBelow _, fun p => mem_placesBelow, ?_⟩, ?_, ?_, ?_⟩
  · rintro s rfl
    exact candidates_substituted v s
  · exact forall₂_takenAt (candidates v substitute) fields
  · exact length_choices (candidates v substitute) fields
  · exact choices_eq_nil_iff
  · intro p big seen inside added either
    exact ofVertex_perm_append distinct inside added either

/-- Ann has been in two towns, and three times on the road. -/
def annTravels : Vertex :=
  ⟨"ann", none, [⟨"p", .ofNat 10, .int 2001, .empty⟩, ⟨"q", .ofNat 12, .string "rome", .empty⟩,
    ⟨"r", .ofNat 10, .int 2005, .empty⟩, ⟨"s", .ofNat 12, .string "oslo", .empty⟩,
    ⟨"t", .ofNat 10, .int 2010, .empty⟩]⟩

def annInLima : VertexProperty := ⟨"u", .ofNat 12, .string "lima", .empty⟩

theorem ofVertex_product_annTravels :
    [SchemaId.ofNat 10, .ofNat 12].Nodup ∧
      candidates annTravels none (.ofNat 12) =
        [⟨"q", .ofNat 12, .string "rome"⟩, ⟨"s", .ofNat 12, .string "oslo"⟩] ∧
      candidates annTravels (some annInLima.matched) (.ofNat 12) = [⟨"u", .ofNat 12, .string "lima"⟩] ∧
      (ofVertex annTravels [.ofNat 10, .ofNat 12] none).length = 6 ∧
      annInLima.key ∈ [SchemaId.ofNat 10, .ofNat 12] ∧
      (annTravels.add annInLima).properties.Perm (annInLima :: annTravels.properties) ∧
      (ofVertex (annTravels.add annInLima) [.ofNat 10, .ofNat 12] none).Perm
        (ofVertex annTravels [.ofNat 10, .ofNat 12] none ++
          ofVertex annTravels [.ofNat 10, .ofNat 12] (some annInLima.matched)) := by
  have distinct : [SchemaId.ofNat 10, .ofNat 12].Nodup := by decide
  have inside : annInLima.key ∈ [SchemaId.ofNat 10, .ofNat 12] := by decide
  have added : (annTravels.add annInLima).properties.Perm (annInLima :: annTravels.properties) :=
    List.perm_append_singleton _ _
  obtain ⟨⟨held, -⟩, -, count, -, grown⟩ := ofVertex_product annTravels distinct none
  obtain ⟨⟨-, substituted⟩, -⟩ := ofVertex_product annTravels distinct (some annInLima.matched)
  have towns := held (.ofNat 12) fun s absent => by cases absent
  exact ⟨distinct, towns.trans rfl, substituted annInLima.matched rfl, count.trans rfl, inside, added,
    grown annInLima _ _ inside added (.inl rfl)⟩

end Vertices

end Match

end GraphStore
