import GraphStore.Proofs.Index.FieldContent
import Mathlib.Data.List.Induction

/-!
What updates do to a document. An update works on its own field only, and by the values there alone; what
stands beside them has no part in it.
-/
namespace GraphStore

namespace FieldSlot

/-- A field with many values; without any it is not there. -/
def ofMany (vs : List FieldValue) : Option FieldSlot := if vs.isEmpty then none else some (.many vs)

/-- What is left of a field after a value comes or goes. -/
def after (kind : UpdateKind) (c : Cardinality) (v : FieldValue) (held : Option FieldSlot) :
    Option FieldSlot :=
  match kind, c with
  | .add, .single => some (.single v)
  | .add, c => some (.many (Document.addTo c v ((held.map (·.values)).getD [])))
  | .delete, .single => none
  | .delete, _ =>
    match held with
    | some (.many vs) => ofMany (Document.removeFrom v vs)
    | held => held

end FieldSlot

namespace Document

def content (d : Document) (name : String) : FieldContent := .ofSlot (d.field? name)

/-- The same document, as far as its values go. -/
structure Same (d e : Document) : Prop where
  index : d.index = e.index
  id : d.id = e.id
  content : ∀ name, (d.content name).Same (e.content name)

theorem find?_putField (name name' : String) (slot : FieldSlot) (fields : List (String × FieldSlot)) :
    ((putField name slot fields).find? (·.1 = name')).map (·.2) =
      if name' = name then some slot else (fields.find? (·.1 = name')).map (·.2) := by
  induction fields with
  | nil => by_cases same : name' = name <;> simp [putField, same, eq_comm]
  | cons f rest ih =>
    rw [putField]
    by_cases here : f.1 = name
    · by_cases same : name' = name
      · simp [here, same]
      · simp [here, same, Ne.symm same]
    · rw [if_neg here]
      by_cases there : f.1 = name'
      · have apart : name' ≠ name := there ▸ here
        simp [there, apart]
      · simp only [List.find?_cons, there, decide_false, ih]

theorem field?_put (d : Document) (name name' : String) (slot : FieldSlot) :
    (d.put name slot).field? name' = if name' = name then some slot else d.field? name' :=
  find?_putField name name' slot d.fields

theorem field?_clear (d : Document) (name name' : String) :
    (d.clear name).field? name' = if name' = name then none else d.field? name' := by
  rw [field?, clear, List.find?_filter]
  by_cases same : name' = name
  · rw [if_pos same, List.find?_eq_none.2]
    · rfl
    · intro f _
      simp [same]
  · rw [if_neg same, field?]
    congr 2
    funext f
    by_cases here : f.1 = name'
    · simp [here, same]
    · simp [here]

theorem values_ofSlot (held : Option FieldSlot) :
    (FieldContent.ofSlot held).values = (((held.map (·.values)).getD []).map (·.value)) := by
  obtain _ | _ | _ := held <;> rfl

theorem ofSlot_ofMany (vs : List FieldValue) :
    FieldContent.ofSlot (FieldSlot.ofMany vs) = .ofMany (vs.map (·.value)) := by
  cases vs <;> rfl

theorem mergeFirst_some {v : FieldValue} {vs merged : List FieldValue} (h : mergeFirst v vs = some merged) :
    merged.map (·.value) = vs.map (·.value) ∧
      FieldContent.isAmong v.value (vs.map (·.value)) = true := by
  induction vs generalizing merged with
  | nil => cases h
  | cons held rest ih =>
    rw [mergeFirst] at h
    split at h
    · next here =>
      obtain rfl := Option.some.inj h
      simp [FieldContent.isAmong, FieldValue.mergeTags, here]
    · obtain ⟨merged', later, rfl⟩ := Option.map_eq_some_iff.1 h
      obtain ⟨kept, there⟩ := ih later
      rw [List.map_cons, List.map_cons, kept]
      exact ⟨rfl, by simpa [FieldContent.isAmong] using .inr (by simpa [FieldContent.isAmong] using there)⟩

theorem mergeFirst_none {v : FieldValue} {vs : List FieldValue} (h : mergeFirst v vs = none) :
    FieldContent.isAmong v.value (vs.map (·.value)) = false := by
  induction vs with
  | nil => rfl
  | cons held rest ih =>
    rw [mergeFirst] at h
    split at h
    · cases h
    · next other =>
      have absent := ih (Option.map_eq_none_iff.1 h)
      simp only [FieldContent.isAmong, List.map_cons, List.any_cons] at absent ⊢
      simp [absent, other]

theorem map_addTo_set (v : FieldValue) (vs : List FieldValue) :
    (addTo .set v vs).map (·.value) =
      if FieldContent.isAmong v.value (vs.map (·.value)) then vs.map (·.value)
      else vs.map (·.value) ++ [v.value] := by
  rw [addTo]
  cases merged : mergeFirst v vs with
  | some ws =>
    obtain ⟨kept, there⟩ := mergeFirst_some merged
    rw [if_pos there, Option.getD_some, kept]
  | none =>
    rw [mergeFirst_none merged, Option.getD_none, List.map_append]
    rfl

theorem map_removeFrom (v : FieldValue) (vs : List FieldValue) :
    (removeFrom v vs).map (·.value) = (vs.map (·.value)).eraseP (·.equals v.value) := by
  rw [removeFrom, List.eraseP_map]
  rfl

/-- A field with what is left of it after a value goes. -/
def takeFrom (d : Document) (name : String) (v : FieldValue) : Document :=
  match d.field? name with
  | some (.many vs) =>
    let left := removeFrom v vs
    if left.isEmpty then d.clear name else d.put name (.many left)
  | _ => d

theorem field?_takeFrom (d : Document) (name name' : String) (v : FieldValue) :
    (d.takeFrom name v).field? name' =
      if name' = name then FieldSlot.after .delete .list v (d.field? name') else d.field? name' := by
  rw [takeFrom]
  split
  · next vs there =>
    simp only
    split
    · next empty =>
      rw [field?_clear]
      split
      · next own =>
        rw [own, there]
        exact (if_pos empty).symm
      · rfl
    · next filled =>
      rw [field?_put]
      split
      · next own =>
        rw [own, there]
        exact (if_neg filled).symm
      · rfl
  · next few =>
    split
    · next own =>
      subst own
      cases held : d.field? name' with
      | none => rfl
      | some slot =>
        cases slot with
        | single v => rfl
        | many vs => exact absurd held (few vs)
    · rfl

/-- An update leaves other fields alone. -/
theorem field?_apply (d : Document) (u : MixedUpdate) (name : String) :
    (d.apply u).field? name =
      if name = u.field then FieldSlot.after u.kind u.cardinality u.value (d.field? name)
      else d.field? name := by
  obtain ⟨_, _, _, field, cardinality, kind, v, _⟩ := u
  cases kind with
  | add =>
    cases cardinality with
    | single => exact field?_put d field name _
    | _ =>
      refine (field?_put d field name _).trans ?_
      split
      · next own =>
        subst own
        rfl
      · rfl
  | delete =>
    cases cardinality with
    | single => exact field?_clear d field name
    | _ => exact field?_takeFrom d field name v

/-- What a field has of values after an update is what the update leaves of those before it. -/
theorem ofSlot_after (u : MixedUpdate) (held : Option FieldSlot) :
    FieldContent.ofSlot (FieldSlot.after u.kind u.cardinality u.value held) = u.leave (.ofSlot held) := by
  obtain ⟨_, _, _, _, cardinality, kind, v, _⟩ := u
  have values := values_ofSlot held
  cases kind with
  | add =>
    rw [MixedUpdate.leave]
    cases cardinality with
    | single => rfl
    | set =>
      show FieldContent.many ((addTo .set v _).map (·.value)) = _
      rw [map_addTo_set, ← values]
      rfl
    | list =>
      show FieldContent.many ((_ ++ [v]).map (·.value)) = _
      rw [List.map_append, ← values]
      rfl
  | delete =>
    cases cardinality with
    | single => rfl
    | _ =>
      obtain _ | _ | vs := held
      · rfl
      · rfl
      · show FieldContent.ofSlot (FieldSlot.ofMany (removeFrom v vs)) = .ofMany (List.eraseP _ _)
        rw [ofSlot_ofMany, map_removeFrom]

/-- An update leaves other fields alone, and its own as its values say. -/
theorem content_apply (d : Document) (u : MixedUpdate) (name : String) :
    (d.apply u).content name = if name = u.field then u.leave (d.content name) else d.content name := by
  rw [content, field?_apply]
  split
  · exact ofSlot_after u (d.field? name)
  · rfl

/-- The update is one for this document. -/
def Takes (d : Document) (u : MixedUpdate) : Prop := d.index = u.index ∧ d.id = u.element.documentId

instance (d : Document) (u : MixedUpdate) : Decidable (d.Takes u) :=
  inferInstanceAs (Decidable (_ ∧ _))

/-- The updates of one document, in order. -/
def applyAll (d : Document) (us : List MixedUpdate) : Document :=
  us.foldl (fun d u => if d.Takes u then d.apply u else d) d

theorem apply_index (d : Document) (u : MixedUpdate) : (d.apply u).index = d.index := by
  rw [apply]
  split <;> first | rfl | (split <;> first | rfl | (simp only; split <;> rfl))

theorem apply_id (d : Document) (u : MixedUpdate) : (d.apply u).id = d.id := by
  rw [apply]
  split <;> first | rfl | (split <;> first | rfl | (simp only; split <;> rfl))

theorem takes_apply (d : Document) (u x : MixedUpdate) : (d.apply u).Takes x ↔ d.Takes x := by
  rw [Takes, Takes, apply_index, apply_id]

theorem applyAll_append (d : Document) (us vs : List MixedUpdate) :
    d.applyAll (us ++ vs) = (d.applyAll us).applyAll vs := List.foldl_append

theorem applyAll_cons_takes {d : Document} {u : MixedUpdate} (takes : d.Takes u) (us : List MixedUpdate) :
    d.applyAll (u :: us) = (d.apply u).applyAll us := by
  rw [applyAll, List.foldl_cons, if_pos takes, ← applyAll]

theorem applyAll_cons_passes {d : Document} {u : MixedUpdate} (passes : ¬d.Takes u) (us : List MixedUpdate) :
    d.applyAll (u :: us) = d.applyAll us := by
  rw [applyAll, List.foldl_cons, if_neg passes, ← applyAll]

variable {d e : Document} {u : MixedUpdate} {us vs : List MixedUpdate} {name : String}

/-- A document stays the document it is. -/
theorem applyAll_place (d : Document) (us : List MixedUpdate) :
    (d.applyAll us).index = d.index ∧ (d.applyAll us).id = d.id := by
  induction us generalizing d with
  | nil => exact ⟨rfl, rfl⟩
  | cons u rest ih =>
    by_cases takes : d.Takes u
    · rw [applyAll_cons_takes takes, (ih _).1, (ih _).2]
      exact ⟨apply_index d u, apply_id d u⟩
    · rw [applyAll_cons_passes takes]
      exact ih d

theorem takes_applyAll (d : Document) (us : List MixedUpdate) (x : MixedUpdate) :
    (d.applyAll us).Takes x ↔ d.Takes x := by
  rw [Takes, Takes, (applyAll_place d us).1, (applyAll_place d us).2]

theorem Same.takes (same : d.Same e) : d.Takes u ↔ e.Takes u := by
  rw [Takes, Takes, same.index, same.id]

theorem Same.refl (d : Document) : d.Same d := ⟨rfl, rfl, fun name => .refl (d.content name)⟩

theorem Same.apply (same : d.Same e) (u : MixedUpdate) : (d.apply u).Same (e.apply u) := by
  refine ⟨?_, ?_, fun name => ?_⟩
  · rw [apply_index, apply_index, same.index]
  · rw [apply_id, apply_id, same.id]
  · rw [content_apply, content_apply]
    split
    · exact (same.content name).leave u
    · exact same.content name

/-- A settled update makes no difference to the values. -/
theorem Same.of_settled (same : d.Same e) (settled : u.Settled (e.content u.field))
    (bound : u.cardinality ≠ .list) : d.Same (e.apply u) := by
  refine ⟨?_, ?_, fun name => ?_⟩
  · rw [apply_index, same.index]
  · rw [apply_id, same.id]
  · rw [content_apply]
    split
    · next own =>
      subst own
      exact FieldContent.same_of_settled (same.content u.field) settled bound
    · exact same.content name

/-- Updates that are not of lists keep the values of a field apart. -/
theorem once_applyAll (once : (d.content name).Once)
    (several : ∀ x ∈ us, d.Takes x → x.field = name → x.cardinality ≠ .list) :
    ((d.applyAll us).content name).Once := by
  induction us generalizing d with
  | nil => exact once
  | cons x rest ih =>
    obtain ⟨first, others⟩ := List.forall_mem_cons.1 several
    by_cases takes : d.Takes x
    · rw [applyAll_cons_takes takes]
      refine ih ?_ fun y there takes' => others y there ((takes_apply d x y).1 takes')
      rw [content_apply]
      split
      · next own => exact once.leave (first takes own.symm)
      · exact once
    · rw [applyAll_cons_passes takes]
      exact ih once others

/-- A settled update stays so through updates that do not undo it. -/
theorem settled_applyAll (settled : u.Settled (d.content u.field)) (bound : u.cardinality ≠ .list)
    (takes : d.Takes u) (free : ∀ x ∈ us, d.Takes x → x.field = u.field →
      x.cardinality = u.cardinality ∧ ¬x.Undoes u) :
    u.Settled ((d.applyAll us).content u.field) := by
  induction us generalizing d with
  | nil => exact settled
  | cons x rest ih =>
    obtain ⟨first, others⟩ := List.forall_mem_cons.1 free
    by_cases takes' : d.Takes x
    · rw [applyAll_cons_takes takes']
      refine ih ?_ ((takes_apply d x u).2 takes) fun y there taken =>
        others y there ((takes_apply d x y).1 taken)
      rw [content_apply]
      split
      · next own =>
        obtain ⟨cardinality, free⟩ := first takes' own.symm
        exact FieldContent.settled_leave settled bound cardinality (takes'.1.symm.trans takes.1)
          (takes'.2.symm.trans takes.2) own.symm free
      · exact settled
    · rw [applyAll_cons_passes takes']
      exact ih settled takes others

end Document

/-- An update with the bare value. -/
def MixedUpdate.bare (u : MixedUpdate) : MixedUpdate := { u with value := .ofJson u.value.value }

/-- What stands beside the values has no part in what updates leave. -/
theorem Document.content_applyAll_bare (d : Document) (us : List MixedUpdate) (name : String) :
    (d.applyAll (us.map (·.bare))).content name = (d.applyAll us).content name := by
  induction us using List.reverseRecOn with
  | nil => rfl
  | append_singleton us u ih =>
    rw [List.map_append, applyAll_append, applyAll_append]
    have bare : (d.applyAll (us.map (·.bare))).Takes u.bare ↔ (d.applyAll us).Takes u := by
      rw [takes_applyAll, takes_applyAll]
      rfl
    by_cases takes : (d.applyAll us).Takes u
    · rw [List.map_singleton, applyAll_cons_takes (bare.2 takes), applyAll_cons_takes takes]
      show (apply _ u.bare).content name = (apply _ u).content name
      rw [content_apply, content_apply, ih]
      rfl
    · rw [List.map_singleton, applyAll_cons_passes (fun taken => takes (bare.1 taken)),
        applyAll_cons_passes takes]
      exact ih

end GraphStore
