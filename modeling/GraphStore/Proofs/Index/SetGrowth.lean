import GraphStore.Index.Update
import Mathlib.Data.List.Sort
import Mathlib.Data.String.Basic

/-!
How a set of updates grows. An update that arrives is put behind the others, or leaves its tags on one that is
there; none goes or moves. Tags stand in one order, each once, so what has grown does not come back to what it
was before.
-/
namespace GraphStore

namespace FieldValue

variable {tag t : String} {tags tags' more : List String}

theorem mem_insertTag : t ∈ insertTag tag tags ↔ t = tag ∨ t ∈ tags := by
  induction tags with
  | nil => simp [insertTag]
  | cons first rest ih =>
    rw [insertTag]
    split
    · next same => simp [same]
    · split
      · simp
      · rw [List.mem_cons, ih, List.mem_cons]
        exact or_left_comm

theorem mem_sortTags : t ∈ sortTags tags ↔ t ∈ tags := by
  induction tags with
  | nil => rfl
  | cons first rest ih =>
    rw [List.mem_cons, ← ih]
    exact mem_insertTag

theorem ascending_insertTag (ascending : tags.Pairwise (· < ·)) :
    (insertTag tag tags).Pairwise (· < ·) := by
  induction tags with
  | nil => exact List.pairwise_singleton _ tag
  | cons first rest ih =>
    obtain ⟨least, others⟩ := List.pairwise_cons.1 ascending
    rw [insertTag]
    split
    · exact ascending
    · next other =>
      split
      · next below =>
        refine List.pairwise_cons.2 ⟨List.forall_mem_cons.2 ⟨below, fun t there => ?_⟩, ascending⟩
        exact below.trans (least t there)
      · next above =>
        refine List.pairwise_cons.2 ⟨fun t there => ?_, ih others⟩
        rcases mem_insertTag.1 there with rfl | there
        · exact lt_of_le_of_ne (not_lt.1 above) (Ne.symm other)
        · exact least t there

theorem ascending_sortTags (tags : List String) : (sortTags tags).Pairwise (· < ·) := by
  induction tags with
  | nil => exact .nil
  | cons first rest ih => exact ascending_insertTag ih

theorem sortTags_congr (same : ∀ t, t ∈ tags ↔ t ∈ tags') : sortTags tags = sortTags tags' :=
  (ascending_sortTags tags).eq_of_mem_iff (ascending_sortTags tags') fun t => by
    rw [mem_sortTags, mem_sortTags, same t]

variable {f g : FieldValue}

theorem mem_mergeTags : t ∈ (f.mergeTags tags).dsr ↔ t ∈ f.dsr ∨ t ∈ tags :=
  mem_sortTags.trans List.mem_append

theorem mergeTags_mergeTags (f : FieldValue) (tags more : List String) :
    (f.mergeTags tags).mergeTags more = f.mergeTags (tags ++ more) := by
  have sorted : sortTags (sortTags (f.dsr ++ tags) ++ more) = sortTags (f.dsr ++ (tags ++ more)) := by
    refine sortTags_congr fun t => ?_
    rw [← List.append_assoc, List.mem_append, mem_sortTags, List.mem_append (s := f.dsr ++ tags)]
  simp only [mergeTags, sorted]

/-- Tags that can be merged both ways are the same. -/
theorem mergeTags_antisymm (there : f.mergeTags tags = g) (back : g.mergeTags more = f) : f = g := by
  have up : ∀ t ∈ f.dsr, t ∈ g.dsr := by
    rw [← there]
    exact fun t here => mem_mergeTags.2 (.inl here)
  have down : ∀ t ∈ g.dsr, t ∈ f.dsr := by
    rw [← back]
    exact fun t here => mem_mergeTags.2 (.inl here)
  have ascending : f.dsr.Pairwise (· < ·) := by
    rw [← back]
    exact ascending_sortTags _
  have ascending' : g.dsr.Pairwise (· < ·) := by
    rw [← there]
    exact ascending_sortTags _
  have dsr : f.dsr = g.dsr := ascending.eq_of_mem_iff ascending' fun t => ⟨up t, down t⟩
  calc f = { f with dsr := g.dsr } := by rw [← dsr]
    _ = f.mergeTags tags := by rw [← there]; rfl
    _ = g := there

end FieldValue

/-- The one update is the other, or is it with more tags. -/
inductive IndexUpdate.Gains : IndexUpdate → IndexUpdate → Prop where
  | nothing (u : IndexUpdate) : Gains u u
  | tags (u : MixedUpdate) (tags : List String) :
      Gains (.mixed u) (.mixed { u with value := u.value.mergeTags tags })

namespace IndexUpdate.Gains

variable {x y z : IndexUpdate}

theorem of_absorb? {arriving : IndexUpdate} (h : x.absorb? arriving = some y) : x.Gains y := by
  cases x <;> cases arriving <;> simp only [absorb?, reduceCtorEq] at h
  · split at h
    · rw [← Option.some.inj h]
      exact .nothing _
    · cases h
  · split at h
    · rw [← Option.some.inj h]
      exact .tags _ _
    · cases h

theorem trans (first : x.Gains y) (second : y.Gains z) : x.Gains z := by
  cases second with
  | nothing => exact first
  | tags u more =>
    cases first with
    | nothing => exact .tags u more
    | tags u tags =>
      simp only [FieldValue.mergeTags_mergeTags]
      exact .tags u (tags ++ more)

theorem antisymm (there : x.Gains y) (back : y.Gains x) : x = y := by
  cases there with
  | nothing => rfl
  | tags u tags =>
    generalize gained : ({ u with value := u.value.mergeTags tags } : MixedUpdate) = v at back
    cases back with
    | nothing => rfl
    | tags _ more =>
      have value : v.value = v.value.mergeTags more :=
        FieldValue.mergeTags_antisymm rfl (congrArg MixedUpdate.value gained)
      rw [← value]

end IndexUpdate.Gains

namespace UpdateSet

/-- Updates keep their places and may have gained tags; others may have come behind them. -/
inductive Grows : List IndexUpdate → List IndexUpdate → Prop where
  | behind (more : List IndexUpdate) : Grows [] more
  | kept {x y : IndexUpdate} {held held' : List IndexUpdate} :
      x.Gains y → Grows held held' → Grows (x :: held) (y :: held')

namespace Grows

variable {us vs ws : List IndexUpdate}

theorem append (us more : List IndexUpdate) : Grows us (us ++ more) := by
  induction us with
  | nil => exact .behind more
  | cons u rest ih => exact .kept (.nothing u) ih

theorem refl (us : List IndexUpdate) : Grows us us := by
  simpa using append us []

theorem trans (first : Grows us vs) (second : Grows vs ws) : Grows us ws := by
  induction first generalizing ws with
  | behind => exact .behind ws
  | kept gains _ ih =>
    cases second with
    | kept gains' grows => exact .kept (gains.trans gains') (ih grows)

theorem antisymm (there : Grows us vs) (back : Grows vs us) : us = vs := by
  induction there with
  | behind =>
    cases back
    rfl
  | kept gains _ ih =>
    cases back with
    | kept gains' grows => rw [gains.antisymm gains', ih grows]

end Grows

variable {s : UpdateSet} {u : IndexUpdate} {us held merged : List IndexUpdate}

theorem grows_absorbInto (h : absorbInto u held = some merged) : Grows held merged := by
  induction held generalizing merged with
  | nil => cases h
  | cons first rest ih =>
    rw [absorbInto] at h
    split at h
    · next one absorbed =>
      rw [← Option.some.inj h]
      exact .kept (.of_absorb? absorbed) (.refl rest)
    · obtain ⟨rest', later, rfl⟩ := Option.map_eq_some_iff.1 h
      exact .kept (.nothing first) (ih later)

theorem grows_insert (s : UpdateSet) (u : IndexUpdate) : Grows s.updates (s.insert u).2.updates := by
  rw [insert]
  split
  · next merged absorbed => exact grows_absorbInto absorbed
  · exact .append s.updates [u]

theorem grows_insertAll (s : UpdateSet) (us : List IndexUpdate) :
    Grows s.updates (s.insertAll us).updates := by
  induction us generalizing s with
  | nil => exact .refl s.updates
  | cons u rest ih => exact (grows_insert s u).trans (ih (s.insert u).2)

/-- Updates leave a set as it was only if each of them does. -/
theorem insertAll_eq_self_iff : s.insertAll us = s ↔ ∀ u ∈ us, (s.insert u).2 = s := by
  induction us with
  | nil => simp [insertAll]
  | cons u rest ih =>
    rw [List.forall_mem_cons, ← ih]
    show (s.insert u).2.insertAll rest = s ↔ _
    constructor
    · intro same
      -- the set grows by the first update and grows on to what it was, so it did not grow
      have back : Grows (s.insert u).2.updates s.updates := by
        have grows := grows_insertAll (s.insert u).2 rest
        rwa [same] at grows
      have first : (s.insert u).2 = s := by
        rw [UpdateSet.mk.injEq, ← (grows_insert s u).antisymm back]
      rw [first] at same
      exact ⟨first, same⟩
    · rintro ⟨first, others⟩
      rw [first, others]

end UpdateSet

end GraphStore
