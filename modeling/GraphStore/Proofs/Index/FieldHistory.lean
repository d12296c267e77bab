import GraphStore.Proofs.Index.FieldMirror
import GraphStore.Proofs.Index.SetGrowth
import Mathlib.Data.List.DropRight

/-!
What the updates of one field leave there. A SINGLE field tells the last update, a SET field the last update of
each value, with the tags that came since the value was last away, and a LIST field counts the updates of each
value up and down, never below nothing.
-/
namespace GraphStore

/-- What equals one value is equal. -/
theorem Json.equals_of_common {a b c : Json} (left : a.equals c = true) (right : b.equals c = true) :
    a.equals b = true := by
  rw [equals_comm] at right
  exact equals_trans left right

/-- Of two values that differ, only one equals a third. -/
theorem Json.equals_of_other {a b c : Json} (other : a.equals b = false) (left : a.equals c = true) :
    b.equals c = false := by
  by_contra right
  rw [equals_of_common left (Bool.not_eq_false _ ▸ right)] at other
  cases other

namespace FieldSlot

/-- What updates leave of a field that was not there. -/
def afterAll (history : List MixedUpdate) : Option FieldSlot :=
  history.foldl (fun held u => after u.kind u.cardinality u.value held) none

/-- The updates of a value, in order. -/
def about (x : Json) (history : List MixedUpdate) : List MixedUpdate :=
  history.filter fun u => u.value.value.equals x

/-- The additions of a value since it was last taken away. -/
def lately (x : Json) (history : List MixedUpdate) : List MixedUpdate :=
  (about x history).rtakeWhile (·.kind = .add)

/-- One more value, or one less if there is one. -/
def tick (n : Nat) : UpdateKind → Nat
  | .add => n + 1
  | .delete => n - 1

/-- Count up with each addition of a value and down with each removal, as far as there is one. -/
def tally (x : Json) (history : List MixedUpdate) : Nat :=
  (about x history).foldl (fun n u => tick n u.kind) 0

/-- The value of a SINGLE field is the one that the last update added. -/
def HoldsLast (history : List MixedUpdate) (held : Option FieldSlot) : Prop :=
  held = history.getLast?.bind fun u => if u.kind = .add then some (.single u.value) else none

/-- The values of a SET field are those whose last update added them, each once and with the tags that came
since it was last away. -/
structure HoldsEach (history : List MixedUpdate) (vs : List FieldValue) : Prop where
  apart : vs.Pairwise fun v w => v.value.equals w.value = false
  holds : ∀ x, (∃ v ∈ vs, v.value.equals x = true) ↔
    (about x history).getLast?.map (·.kind) = some .add
  tags : ∀ v ∈ vs, ∀ x, v.value.equals x = true →
    ∀ t, t ∈ v.dsr ↔ ∃ u ∈ lately x history, t ∈ u.value.dsr

/-- A LIST field has each value as often as the updates count it. -/
def HoldsCount (history : List MixedUpdate) (vs : List FieldValue) : Prop :=
  ∀ x, vs.countP (fun v => v.value.equals x) = tally x history

/-- A field holds what its cardinality makes of its updates. -/
def Follows (c : Cardinality) (history : List MixedUpdate) (held : Option FieldSlot) : Prop :=
  match c with
  | .single => HoldsLast history held
  | .set => ∃ vs, held = ofMany vs ∧ HoldsEach history vs
  | .list => ∃ vs, held = ofMany vs ∧ HoldsCount history vs

variable {history : List MixedUpdate} {u : MixedUpdate} {v : FieldValue} {vs : List FieldValue}
variable {c : Cardinality} {x : Json}

theorem afterAll_concat (history : List MixedUpdate) (u : MixedUpdate) :
    afterAll (history ++ [u]) = after u.kind u.cardinality u.value (afterAll history) := by
  simp [afterAll]

theorem about_concat_of_equals (own : u.value.value.equals x = true) :
    about x (history ++ [u]) = about x history ++ [u] := by
  simp [about, own]

theorem about_concat_of_other (other : u.value.value.equals x = false) :
    about x (history ++ [u]) = about x history := by
  simp [about, other]

theorem lately_concat_of_add (own : u.value.value.equals x = true) (kind : u.kind = .add) :
    lately x (history ++ [u]) = lately x history ++ [u] := by
  rw [lately, about_concat_of_equals own, List.rtakeWhile_concat_pos _ _ _ (by simpa using kind), lately]

theorem lately_concat_of_other (other : u.value.value.equals x = false) :
    lately x (history ++ [u]) = lately x history := by
  rw [lately, about_concat_of_other other, lately]

/-- A value that is away was not added since. -/
theorem lately_eq_nil (away : (about x history).getLast?.map (·.kind) ≠ some .add) :
    lately x history = [] := by
  rw [lately, List.rtakeWhile_eq_nil_iff]
  intro some
  rw [List.getLast?_eq_some_getLast some] at away
  simpa using away

theorem tally_concat_of_equals (own : u.value.value.equals x = true) :
    tally x (history ++ [u]) = tick (tally x history) u.kind := by
  simp [tally, about_concat_of_equals own]

theorem tally_concat_of_other (other : u.value.value.equals x = false) :
    tally x (history ++ [u]) = tally x history := by
  rw [tally, about_concat_of_other other, tally]

end FieldSlot

namespace Document

variable {v : FieldValue} {vs merged : List FieldValue} {x : Json}

/-- The entry that tags go to. -/
theorem mergeFirst_parts (h : mergeFirst v vs = some merged) : ∃ front held rest,
    vs = front ++ held :: rest ∧ merged = front ++ held.mergeTags v.dsr :: rest ∧
      held.value.equals v.value = true := by
  induction vs generalizing merged with
  | nil => cases h
  | cons w others ih =>
    rw [mergeFirst] at h
    split at h
    · next here => exact ⟨[], w, others, rfl, (Option.some.inj h).symm, here⟩
    · obtain ⟨merged', later, rfl⟩ := Option.map_eq_some_iff.1 h
      obtain ⟨front, held, rest, rfl, rfl, here⟩ := ih later
      exact ⟨w :: front, held, rest, rfl, rfl, here⟩

/-- A value comes to an entry that equals it, or it is a new one. -/
theorem addTo_set_cases (v : FieldValue) (vs : List FieldValue) :
    (∃ front held rest, vs = front ++ held :: rest ∧
      addTo .set v vs = front ++ held.mergeTags v.dsr :: rest ∧ held.value.equals v.value = true) ∨
    addTo .set v vs = vs ++ [v] ∧ ∀ w ∈ vs, w.value.equals v.value = false := by
  rw [addTo]
  cases found : mergeFirst v vs with
  | some merged => exact .inl (mergeFirst_parts found)
  | none =>
    have absent := FieldContent.isAmong_eq_false_iff.1 (mergeFirst_none found)
    exact .inr ⟨rfl, by simpa using absent⟩

theorem addTo_ne_nil (c : Cardinality) (v : FieldValue) (vs : List FieldValue) : addTo c v vs ≠ [] := by
  cases c with
  | set => obtain ⟨front, held, rest, -, shape, -⟩ | ⟨shape, -⟩ := addTo_set_cases v vs <;> simp [shape]
  | _ => simp [addTo]

/-- If no two values are equal, what goes is all that equals the value. -/
theorem removeFrom_of_apart (apart : vs.Pairwise fun v w => v.value.equals w.value = false) :
    removeFrom v vs = vs.filter fun w => w.value.equals v.value = false := by
  rw [removeFrom]
  induction vs with
  | nil => rfl
  | cons w rest ih =>
    obtain ⟨first, others⟩ := List.pairwise_cons.1 apart
    cases here : w.value.equals v.value with
    | true =>
      have stay : ∀ y ∈ rest, decide (y.value.equals v.value = false) = true := fun y there =>
        decide_eq_true (Json.equals_of_other (first y there) here)
      rw [List.filter_cons_of_neg (by simp [here]), List.filter_eq_self.2 stay]
      simp [here]
    | false => simp [here, ih others]

/-- What is taken away counts for each value that it equals. -/
theorem countP_removeFrom (v : FieldValue) (vs : List FieldValue) (x : Json) :
    (removeFrom v vs).countP (fun w => w.value.equals x) =
      if v.value.equals x then vs.countP (fun w => w.value.equals x) - 1
      else vs.countP fun w => w.value.equals x := by
  rw [removeFrom]
  induction vs with
  | nil => simp
  | cons w rest ih =>
    rw [List.eraseP_cons]
    cases here : w.value.equals v.value with
    | true =>
      have alike : w.value.equals x = v.value.equals x := Json.Same.equals_left (.inr here)
      cases own : v.value.equals x <;> simp [alike, own]
    | false =>
      cases own : v.value.equals x with
      | true =>
        rw [Json.equals_comm] at here
        simpa [Json.equals_of_other here own, own] using ih
      | false => simp [ih, own, List.countP_cons]

end Document

namespace FieldSlot

variable {history : List MixedUpdate} {u : MixedUpdate} {v : FieldValue} {vs : List FieldValue}
variable {c : Cardinality} {x : Json}

theorem after_add_ofMany (several : c ≠ .single) (v : FieldValue) (vs : List FieldValue) :
    after .add c v (ofMany vs) = ofMany (Document.addTo c v vs) := by
  have filled : ofMany (Document.addTo c v vs) = some (.many (Document.addTo c v vs)) :=
    if_neg (by simpa using Document.addTo_ne_nil c v vs)
  rw [filled]
  conv => rhs; rw [← values_ofMany vs]
  cases c with
  | single => exact absurd rfl several
  | _ => rfl

theorem holdsLast_concat (history : List MixedUpdate) (u : MixedUpdate) (held : Option FieldSlot) :
    HoldsLast (history ++ [u]) (after u.kind .single u.value held) := by
  rw [HoldsLast, List.getLast?_concat]
  cases kind : u.kind <;> simp [after, kind]

namespace HoldsEach

theorem start : HoldsEach [] [] where
  apart := .nil
  holds x := by simp [about]
  tags v there := nomatch there

/-- The tags of a value stay as they were when another one comes or goes. -/
theorem tags_of_other (each : HoldsEach history vs) (there : v ∈ vs)
    (other : v.value.equals u.value.value = false) (equal : v.value.equals x = true) (t : String) :
    t ∈ v.dsr ↔ ∃ y ∈ lately x (history ++ [u]), t ∈ y.value.dsr := by
  rw [lately_concat_of_other (Json.equals_of_other other equal)]
  exact each.tags v there x equal t

/-- A value that is held gets the tags of one that equals it. -/
theorem merge {front rest : List FieldValue} {held : FieldValue}
    (each : HoldsEach history (front ++ held :: rest)) (kind : u.kind = .add)
    (here : held.value.equals u.value.value = true) :
    HoldsEach (history ++ [u]) (front ++ held.mergeTags u.value.dsr :: rest) := by
  have others : ∀ w ∈ front ++ rest, w.value.equals held.value = false := by
    obtain ⟨-, below, before⟩ := List.pairwise_append.1 each.apart
    intro w there
    rcases List.mem_append.1 there with first | last
    · exact before w first held List.mem_cons_self
    · rw [Json.equals_comm]
      exact (List.pairwise_cons.1 below).1 w last
  refine ⟨?_, fun x => ?_, fun w there x equal t => ?_⟩
  · simpa [List.pairwise_append, FieldValue.mergeTags] using each.apart
  · cases own : u.value.value.equals x with
    | true =>
      have holds : (held.mergeTags u.value.dsr).value.equals x = true := Json.equals_trans here own
      rw [about_concat_of_equals own]
      simpa [kind] using ⟨_, .inr (.inl rfl), holds⟩
    | false =>
      rw [about_concat_of_other own, ← each.holds x]
      simp [or_and_right, exists_or, FieldValue.mergeTags]
  · by_cases one : w = held.mergeTags u.value.dsr
    · subst one
      rw [Json.equals_comm] at here
      have own : u.value.value.equals x = true := Json.equals_trans here equal
      rw [FieldValue.mem_mergeTags, each.tags held (by simp) x equal t, lately_concat_of_add own kind]
      simp [or_and_right, exists_or]
    · have among : w ∈ front ++ rest := by simpa [one] using there
      have before : w ∈ front ++ held :: rest :=
        List.mem_append.2 ((List.mem_append.1 among).imp id (.tail _))
      have other : held.value.equals w.value = false := (Json.equals_comm ..).trans (others w among)
      exact each.tags_of_other before (Json.equals_of_other other here) equal t

/-- A value that equals none comes to the end. -/
theorem append (each : HoldsEach history vs) (kind : u.kind = .add)
    (absent : ∀ w ∈ vs, w.value.equals u.value.value = false) :
    HoldsEach (history ++ [u]) (vs ++ [u.value]) := by
  refine ⟨?_, fun x => ?_, fun w there x equal t => ?_⟩
  · exact List.pairwise_append.2 ⟨each.apart, List.pairwise_singleton .., by simpa using absent⟩
  · cases own : u.value.value.equals x with
    | true => simp [about_concat_of_equals own, own, kind]
    | false => simp [about_concat_of_other own, own, or_and_right, exists_or, each.holds x]
  · rcases List.mem_append.1 there with before | last
    · exact each.tags_of_other before (absent w before) equal t
    · obtain rfl := List.mem_singleton.1 last
      have away : (about x history).getLast?.map (·.kind) ≠ some .add := by
        rw [Ne, ← each.holds x]
        rintro ⟨v, held, same⟩
        rw [Json.equals_of_other (absent v held) same] at equal
        cases equal
      rw [lately_concat_of_add equal kind, lately_eq_nil away]
      simp

theorem add (each : HoldsEach history vs) (kind : u.kind = .add) :
    HoldsEach (history ++ [u]) (Document.addTo .set u.value vs) := by
  obtain ⟨front, held, rest, rfl, shape, here⟩ | ⟨shape, absent⟩ := Document.addTo_set_cases u.value vs
  · rw [shape]
    exact each.merge kind here
  · rw [shape]
    exact each.append kind absent

/-- What is left has no value that equals the one that went. -/
theorem delete (each : HoldsEach history vs) (kind : u.kind = .delete) :
    HoldsEach (history ++ [u]) (Document.removeFrom u.value vs) := by
  rw [Document.removeFrom_of_apart each.apart]
  refine ⟨each.apart.filter _, fun x => ?_, fun w there x equal t => ?_⟩
  · cases own : u.value.value.equals x with
    | true =>
      rw [about_concat_of_equals own]
      have gone : ∀ w ∈ vs, w.value.equals u.value.value = false → w.value.equals x = false := by
        intro w _ other
        rw [Json.equals_comm] at other
        exact Json.equals_of_other other own
      simpa [kind] using gone
    | false =>
      rw [about_concat_of_other own, ← each.holds x]
      have stays (w : FieldValue) (equal : w.value.equals x = true) :
          w.value.equals u.value.value = false := by
        rw [Json.equals_comm] at own equal ⊢
        exact Json.equals_of_other own equal
      constructor
      · rintro ⟨w, left, equal⟩
        exact ⟨w, List.mem_of_mem_filter left, equal⟩
      · rintro ⟨w, held, equal⟩
        exact ⟨w, List.mem_filter.2 ⟨held, decide_eq_true (stays w equal)⟩, equal⟩
  · obtain ⟨held, other⟩ := List.mem_filter.1 there
    exact each.tags_of_other held (by simpa using other) equal t

end HoldsEach

theorem HoldsCount.add (count : HoldsCount history vs) (kind : u.kind = .add) :
    HoldsCount (history ++ [u]) (Document.addTo .list u.value vs) := by
  intro x
  cases own : u.value.value.equals x with
  | true => simp [tally_concat_of_equals own, ← count x, Document.addTo, kind, tick, own]
  | false => simp [tally_concat_of_other own, ← count x, Document.addTo, own]

theorem HoldsCount.delete (count : HoldsCount history vs) (kind : u.kind = .delete) :
    HoldsCount (history ++ [u]) (Document.removeFrom u.value vs) := by
  intro x
  rw [Document.countP_removeFrom]
  cases own : u.value.value.equals x with
  | true => simp [tally_concat_of_equals own, ← count x, kind, tick]
  | false => simp [tally_concat_of_other own, ← count x]

/-- A field follows its updates, which all have its cardinality. -/
theorem follows_afterAll (one : ∀ u ∈ history, u.cardinality = c) : Follows c history (afterAll history) := by
  induction history using List.reverseRecOn with
  | nil =>
    cases c with
    | single => rfl
    | set => exact ⟨[], rfl, .start⟩
    | list => exact ⟨[], rfl, fun x => rfl⟩
  | append_singleton history u ih =>
    have before := ih fun y there => one y (List.mem_append_left _ there)
    obtain rfl : u.cardinality = c := one u (by simp)
    rw [afterAll_concat]
    generalize afterAll history = held at before ⊢
    cases cardinality : u.cardinality with
    | single => exact holdsLast_concat history u held
    | set =>
      rw [cardinality] at before
      obtain ⟨vs, rfl, each⟩ := before
      cases kind : u.kind with
      | add => exact ⟨_, after_add_ofMany (by decide) u.value vs, each.add kind⟩
      | delete => exact ⟨_, after_delete (by decide) u.value vs, each.delete kind⟩
    | list =>
      rw [cardinality] at before
      obtain ⟨vs, rfl, count⟩ := before
      cases kind : u.kind with
      | add => exact ⟨_, after_add_ofMany (by decide) u.value vs, count.add kind⟩
      | delete => exact ⟨_, after_delete (by decide) u.value vs, count.delete kind⟩

end FieldSlot

end GraphStore
