import GraphStore.Proofs.Index.Accumulation
import GraphStore.Proofs.Index.SetGrowth

/-!
What a set keeps of the updates that come to it. Updates that are like each other form a class, and of each class
the set keeps the first to come, with the tags of all. To be like another is symmetric and transitive. A value
of a LIST field is not like itself, so the classes are those of the other updates, and each value of a LIST
stays.
-/
namespace GraphStore

namespace IndexUpdate

/-- The two are equal composite updates, or do the same to one value of one SINGLE or SET field. -/
def Like : IndexUpdate → IndexUpdate → Prop
  | composite a, composite b => a = b
  | mixed a, mixed b => a.sameTarget b = true
  | _, _ => False

instance : DecidableRel Like
  | composite a, composite b => inferInstanceAs (Decidable (a = b))
  | mixed a, mixed b => inferInstanceAs (Decidable (a.sameTarget b = true))
  | composite _, mixed _ => .isFalse id
  | mixed _, composite _ => .isFalse id

/-- An update of a LIST field. -/
def isListed : IndexUpdate → Bool
  | composite _ => false
  | mixed u => u.cardinality = .list

/-- The tags of provenance; a composite update has none. -/
def tags : IndexUpdate → List String
  | composite _ => []
  | mixed u => u.value.dsr

def withTags (tags : List String) : IndexUpdate → IndexUpdate
  | composite u => composite u
  | mixed u => mixed { u with value := { u.value with dsr := tags } }

variable {u v w x y a : IndexUpdate} {us : List IndexUpdate}

theorem like_symm (h : u.Like v) : v.Like u := by
  cases u <;> cases v <;> simp only [Like] at *
  · exact h.symm
  · simp only [MixedUpdate.sameTarget_iff] at *
    obtain ⟨list, cardinality, index, kind, element, field, value⟩ := h
    rw [Json.equals_comm]
    exact ⟨cardinality ▸ list, cardinality.symm, index.symm, kind.symm, element.symm, field.symm, value⟩

theorem like_trans (h : u.Like v) (h' : v.Like w) : u.Like w := by
  cases u <;> cases v <;> simp only [Like] at h <;> cases w <;> simp only [Like] at *
  · exact h.trans h'
  · simp only [MixedUpdate.sameTarget_iff] at *
    obtain ⟨list, cardinality, index, kind, element, field, value⟩ := h
    obtain ⟨-, cardinality', index', kind', element', field', value'⟩ := h'
    exact ⟨list, cardinality.trans cardinality', index.trans index', kind.trans kind',
      element.trans element', field.trans field', Json.equals_trans value value'⟩

theorem like_self_of_like (h : u.Like v) : u.Like u := like_trans h (like_symm h)

/-- Each update is like itself but for those of LIST fields, as far as its value equals itself. -/
theorem like_self_iff :
    u.Like u ↔ u.isListed = false ∧ ∀ m, u = mixed m → m.value.value.equals m.value.value = true := by
  cases u <;> simp [Like, isListed, MixedUpdate.sameTarget_iff]

theorem not_like_of_isListed (listed : u.isListed = true) : ¬u.Like v := by
  intro like
  have kept := (like_self_iff.1 (like_self_of_like like)).1
  rw [listed] at kept
  cases kept

theorem absorbs_iff_like : u.Absorbs v ↔ u.Like v := by
  cases u <;> cases v
  · exact absorbs_composite
  · exact ⟨fun h => (by cases h), False.elim⟩
  · exact ⟨fun h => (by cases h), False.elim⟩
  · exact absorbs_mixed

@[simp] theorem tags_withTags_tags (u : IndexUpdate) : u.withTags u.tags = u := by
  cases u <;> rfl

@[simp] theorem withTags_withTags (some more : List String) :
    (u.withTags some).withTags more = u.withTags more := by
  cases u <;> rfl

@[simp] theorem like_withTags_left (some : List String) : (u.withTags some).Like v ↔ u.Like v := by
  cases u <;> cases v <;> rfl

@[simp] theorem isListed_withTags (some : List String) : (u.withTags some).isListed = u.isListed := by
  cases u <;> rfl

/-- An update that absorbs another one gets its tags, in order, and is otherwise as it was. -/
theorem tags_of_absorb? (h : x.absorb? a = some y) :
    y = x.withTags y.tags ∧ (∀ t, t ∈ y.tags ↔ t ∈ x.tags ∨ t ∈ a.tags) ∧ y.tags.Pairwise (· < ·) := by
  cases x <;> cases a <;> simp only [absorb?, reduceCtorEq] at h
  · split at h
    · cases h
      simp [withTags, tags]
    · cases h
  · split at h
    · cases h
      exact ⟨rfl, fun t => FieldValue.mem_mergeTags, FieldValue.ascending_sortTags _⟩
    · cases h

/-- The update as a set holds it for its class: as it came, with the tags of all that came. -/
structure Gathers (us : List IndexUpdate) (u x : IndexUpdate) : Prop where
  rest : x = u.withTags x.tags
  tags : ∀ t, t ∈ x.tags ↔ t ∈ u.tags ∨ ∃ y ∈ us, u.Like y ∧ t ∈ y.tags
  ascending : u.tags.Pairwise (· < ·) → (∀ y ∈ us, u.Like y → y.tags.Pairwise (· < ·)) →
    x.tags.Pairwise (· < ·)
  alone : ¬u.Like u → x = u

namespace Gathers

theorem like_iff (gathers : Gathers us u x) : x.Like v ↔ u.Like v := by
  rw [gathers.rest, like_withTags_left]

theorem first (apart : ∀ y ∈ us, ¬u.Like y) : Gathers (us ++ [u]) u u where
  rest := by simp
  tags t := by
    constructor
    · exact .inl
    · rintro (here | ⟨y, there, like, tag⟩)
      · exact here
      · rcases List.mem_append.1 there with before | last
        · exact (apart y before like).elim
        · rwa [← List.mem_singleton.1 last]
  ascending here _ := here
  alone _ := rfl

theorem pass (gathers : Gathers us u x) (apart : ¬u.Like a) : Gathers (us ++ [a]) u x where
  rest := gathers.rest
  tags t := by
    rw [gathers.tags t]
    simp [or_and_right, exists_or, apart]
  ascending here others :=
    gathers.ascending here fun y there => others y (List.mem_append_left _ there)
  alone := gathers.alone

theorem absorb (gathers : Gathers us u x) (like : u.Like a) (absorbed : x.absorb? a = some y) :
    Gathers (us ++ [a]) u y := by
  obtain ⟨rest, tags, ascending⟩ := tags_of_absorb? absorbed
  refine ⟨?_, fun t => ?_, fun _ _ => ascending, fun alone => (alone (like_self_of_like like)).elim⟩
  · calc y = x.withTags y.tags := rest
      _ = (u.withTags x.tags).withTags y.tags := by rw [← gathers.rest]
      _ = u.withTags y.tags := withTags_withTags ..
  · rw [tags t, gathers.tags t]
    simp [or_and_right, exists_or, like, or_assoc]

end Gathers

/-- The updates that are not like an earlier one. -/
def firsts : List IndexUpdate → List IndexUpdate
  | [] => []
  | u :: rest => u :: (firsts rest).filter fun v => ¬u.Like v

theorem firsts_concat (us : List IndexUpdate) (u : IndexUpdate) :
    firsts (us ++ [u]) = firsts us ++ if ∃ x ∈ us, x.Like u then [] else [u] := by
  induction us with
  | nil => simp [firsts]
  | cons first rest ih =>
    rw [List.cons_append, firsts, ih, firsts, List.filter_append, List.cons_append]
    by_cases like : first.Like u
    · split <;> simp [like]
    · simp only [List.exists_mem_cons_iff, like, false_or]
      split <;> simp [like]

theorem mem_of_mem_firsts (h : u ∈ firsts us) : u ∈ us := by
  induction us with
  | nil => exact h
  | cons first rest ih =>
    rcases List.mem_cons.1 h with rfl | later
    · exact List.mem_cons_self
    · exact List.mem_cons_of_mem _ (ih (List.mem_of_mem_filter later))

theorem firsts_apart (us : List IndexUpdate) : (firsts us).Pairwise fun u v => ¬u.Like v := by
  induction us with
  | nil => exact .nil
  | cons first rest ih =>
    rw [firsts]
    refine List.pairwise_cons.2 ⟨fun v there => ?_, ih.filter _⟩
    simpa using List.of_mem_filter there

/-- Whatever came is like the first of its class. -/
theorem exists_first (h : u ∈ us) : ∃ f ∈ firsts us, f = u ∨ f.Like u := by
  induction us with
  | nil => cases h
  | cons first rest ih =>
    by_cases like : first.Like u
    · exact ⟨first, List.mem_cons_self, .inr like⟩
    · rcases List.mem_cons.1 h with rfl | later
      · exact ⟨u, List.mem_cons_self, .inl rfl⟩
      · obtain ⟨f, there, same⟩ := ih later
        have apart : ¬first.Like f := by
          rcases same with rfl | same
          · exact like
          · exact fun other => like (like_trans other same)
        exact ⟨f, List.mem_cons_of_mem _ (List.mem_filter.2 ⟨there, by simpa using apart⟩), same⟩

end IndexUpdate

namespace UpdateSet

open IndexUpdate

variable {us fs held : List IndexUpdate} {a u : IndexUpdate}

theorem forall₂_pass (gathers : List.Forall₂ (Gathers us) fs held) (apart : ∀ f ∈ fs, ¬f.Like a) :
    List.Forall₂ (Gathers (us ++ [a])) fs held := by
  induction gathers with
  | nil => exact .nil
  | cons one _ ih =>
    obtain ⟨first, others⟩ := List.forall_mem_cons.1 apart
    exact .cons (one.pass first) (ih others)

/-- An update goes to the first of its class, and only if no class is its own it goes nowhere. -/
theorem forall₂_absorbInto (gathers : List.Forall₂ (Gathers us) fs held)
    (apart : fs.Pairwise fun f g => ¬f.Like g) :
    (absorbInto a held).casesOn (∀ f ∈ fs, ¬f.Like a)
      fun merged => (∃ f ∈ fs, f.Like a) ∧ List.Forall₂ (Gathers (us ++ [a])) fs merged := by
  induction gathers with
  | nil => simp [absorbInto]
  | @cons f x fs held one rest ih =>
    obtain ⟨first, others⟩ := List.pairwise_cons.1 apart
    rw [absorbInto]
    cases absorbed : x.absorb? a with
    | some merged =>
      have like : f.Like a := by
        rw [← one.like_iff, ← absorbs_iff_like, IndexUpdate.Absorbs, absorbed]
        rfl
      have free : ∀ g ∈ fs, ¬g.Like a := fun g there other =>
        first g there (like_trans like (like_symm other))
      exact ⟨⟨f, List.mem_cons_self, like⟩, .cons (one.absorb like absorbed) (forall₂_pass rest free)⟩
    | none =>
      have unlike : ¬f.Like a := by
        rw [← one.like_iff, ← absorbs_iff_like, IndexUpdate.Absorbs, absorbed]
        simp
      have later := ih others
      cases found : absorbInto a held with
      | none =>
        rw [found] at later
        exact List.forall_mem_cons.2 ⟨unlike, later⟩
      | some merged =>
        rw [found] at later
        obtain ⟨⟨g, there, like⟩, gathered⟩ := later
        exact ⟨⟨g, List.mem_cons_of_mem _ there, like⟩, .cons (one.pass unlike) gathered⟩

/-- One update more keeps a set that holds the first of each class, and is taken if its class is new. -/
theorem gathers_insert {s : UpdateSet} (gathers : List.Forall₂ (Gathers us) (firsts us) s.updates) :
    List.Forall₂ (Gathers (us ++ [a])) (firsts (us ++ [a])) (s.insert a).2.updates ∧
      ((s.insert a).1 = true ↔ ∀ x ∈ us, ¬x.Like a) := by
  have step := forall₂_absorbInto (a := a) gathers (firsts_apart us)
  rw [insert, firsts_concat]
  cases found : absorbInto a s.updates with
  | none =>
    rw [found] at step
    have free : ∀ x ∈ us, ¬x.Like a := by
      intro x there like
      obtain ⟨f, first, rfl | same⟩ := exists_first there
      · exact step f first like
      · exact step f first (like_trans same like)
    have own : Gathers (us ++ [a]) a a := .first fun y there like => free y there (like_symm like)
    have new : ¬∃ x ∈ us, x.Like a := by simpa using free
    rw [if_neg new]
    exact ⟨List.rel_append (forall₂_pass gathers step) (.cons own .nil), by simpa using free⟩
  | some merged =>
    rw [found] at step
    obtain ⟨⟨f, first, like⟩, gathered⟩ := step
    have seen : ∃ x ∈ us, x.Like a := ⟨f, mem_of_mem_firsts first, like⟩
    rw [if_pos seen, List.append_nil]
    exact ⟨gathered, by simpa using seen⟩

theorem gathers_insertAll (us : List IndexUpdate) :
    List.Forall₂ (Gathers us) (firsts us) (empty.insertAll us).updates := by
  induction us using List.reverseRecOn with
  | nil => exact .nil
  | append_singleton us u ih =>
    rw [insertAll_concat]
    exact (gathers_insert ih).1

theorem countP_of_gathers (gathers : List.Forall₂ (Gathers us) fs held) :
    held.countP (fun x => x.Like u) = fs.countP (fun f => f.Like u) := by
  induction gathers with
  | nil => rfl
  | cons one _ ih => simp [List.countP_cons, ih, one.like_iff]

theorem filter_isListed_of_gathers (gathers : List.Forall₂ (Gathers us) fs held) :
    held.filter (·.isListed) = fs.filter (·.isListed) := by
  induction gathers with
  | nil => rfl
  | @cons f x fs held one _ ih =>
    by_cases listed : f.isListed = true
    · rw [one.alone (not_like_of_isListed listed), List.filter_cons, List.filter_cons, ih]
    · have plain : ¬x.isListed = true := by rwa [one.rest, isListed_withTags]
      rw [List.filter_cons_of_neg listed, List.filter_cons_of_neg plain, ih]

theorem countP_le_one (apart : fs.Pairwise fun f g => ¬f.Like g) : fs.countP (fun f => f.Like u) ≤ 1 := by
  induction fs with
  | nil => simp
  | cons f rest ih =>
    obtain ⟨first, others⟩ := List.pairwise_cons.1 apart
    by_cases like : f.Like u
    · have free : rest.countP (fun g => g.Like u) = 0 := by
        simp only [List.countP_eq_zero, decide_eq_true_eq]
        intro g there other
        exact first g there (like_trans like (like_symm other))
      simp [like, free]
    · simpa [like] using ih others

theorem countP_firsts (came : u ∈ us) (self : u.Like u) : (firsts us).countP (fun f => f.Like u) = 1 := by
  have most : (firsts us).countP (fun f => f.Like u) ≤ 1 := countP_le_one (firsts_apart us)
  have some : 0 < (firsts us).countP (fun f => f.Like u) := by
    rw [List.countP_pos_iff]
    obtain ⟨f, there, rfl | like⟩ := exists_first came
    · exact ⟨f, there, by simpa using self⟩
    · exact ⟨f, there, by simpa using like⟩
  omega

theorem filter_isListed_firsts (us : List IndexUpdate) :
    (firsts us).filter (·.isListed) = us.filter (·.isListed) := by
  induction us using List.reverseRecOn with
  | nil => rfl
  | append_singleton us u ih =>
    rw [firsts_concat, List.filter_append, List.filter_append, ih]
    by_cases listed : u.isListed = true
    · have new : ¬∃ x ∈ us, x.Like u := by
        rintro ⟨x, -, like⟩
        exact not_like_of_isListed listed (like_symm like)
      rw [if_neg new]
    · split <;> simp [listed]

/-- What a set holds after some updates: the first of each class, in order of arrival, with the tags of its
class; one update of each class, and all those of LIST fields. -/
structure Represents (us held : List IndexUpdate) : Prop where
  gathered : List.Forall₂ (Gathers us) (firsts us) held
  once : ∀ u ∈ us, u.Like u → held.countP (fun x => x.Like u) = 1
  listed : held.filter (·.isListed) = us.filter (·.isListed)

/-- A set represents what came to it, and answers that an update is one more if none like it came before. -/
theorem insertAll_represents (us : List IndexUpdate) :
    Represents us (empty.insertAll us).updates ∧
      ∀ front u rest, us = front ++ u :: rest →
        (((empty.insertAll front).insert u).1 = true ↔ ∀ x ∈ front, ¬x.Like u) := by
  have gathered := gathers_insertAll us
  refine ⟨⟨gathered, fun u came self => ?_, ?_⟩, ?_⟩
  · rw [countP_of_gathers gathered]
    exact countP_firsts came self
  · rw [filter_isListed_of_gathers gathered]
    exact filter_isListed_firsts us
  · rintro front u rest -
    exact (gathers_insert (gathers_insertAll front)).2

end UpdateSet

end GraphStore
