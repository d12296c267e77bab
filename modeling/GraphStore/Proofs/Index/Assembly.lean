import GraphStore.Proofs.Index.Accumulation
import GraphStore.Proofs.Index.FieldHistory

/-!
Documents that are put together from updates of many. A document has its own updates, those for its index and
its element, and nothing else; each of its fields has its own ones of these. So the updates of documents can be
mixed in any way.
-/
namespace GraphStore

/-- The index and the document that an update is for. -/
def MixedUpdate.place (u : MixedUpdate) : SchemaId × String := (u.index, u.element.documentId)

/-- The updates for one document, in order. -/
def updatesAt (place : SchemaId × String) (us : List MixedUpdate) : List MixedUpdate :=
  us.filter (·.place = place)

/-- The documents that updates are for, in the order in which they are met. -/
def placesOf (us : List MixedUpdate) : List (SchemaId × String) := (us.map (·.place)).eraseDups

namespace Document

def place (d : Document) : SchemaId × String := (d.index, d.id)

/-- The document that its own updates leave, from the first on. -/
def ofUpdates (place : SchemaId × String) (own : List MixedUpdate) : Document :=
  own.foldl apply (.new place.1 ((own.head?.map (·.store)).getD "") place.2)

/-- No field is there without a value. -/
def Filled (d : Document) : Prop := ∀ f ∈ d.fields, f.2 ≠ .many []

variable {d : Document} {p : SchemaId × String} {u : MixedUpdate} {us vs own : List MixedUpdate}
variable {name : String} {slot : FieldSlot}

section Places

theorem mem_placesOf : p ∈ placesOf us ↔ p ∈ us.map (·.place) := List.mem_eraseDups

theorem placesOf_concat (us : List MixedUpdate) (u : MixedUpdate) :
    placesOf (us ++ [u]) = if u.place ∈ placesOf us then placesOf us else placesOf us ++ [u.place] := by
  rw [placesOf, List.map_append, List.eraseDups_append, List.map_singleton, ← placesOf]
  by_cases met : u.place ∈ placesOf us
  · have none : [u.place].removeAll (us.map (·.place)) = [] := by
      simpa [List.removeAll] using mem_placesOf.1 met
    simp [met, none]
  · have one : [u.place].removeAll (us.map (·.place)) = [u.place] := by
      simpa [List.removeAll] using fun there => met (mem_placesOf.2 there)
    rw [if_neg met, one]
    rfl

theorem nodup_placesOf (us : List MixedUpdate) : (placesOf us).Nodup := by
  induction us using List.reverseRecOn with
  | nil => exact .nil
  | append_singleton us u ih =>
    rw [placesOf_concat]
    split
    · exact ih
    · next new =>
      refine List.nodup_append.2 ⟨ih, List.nodup_singleton _, ?_⟩
      intro p there q last same
      rw [same, List.mem_singleton.1 last] at there
      exact new there

theorem updatesAt_concat_own (own : u.place = p) : updatesAt p (us ++ [u]) = updatesAt p us ++ [u] := by
  simp [updatesAt, own]

theorem updatesAt_concat_other (other : u.place ≠ p) : updatesAt p (us ++ [u]) = updatesAt p us := by
  simp [updatesAt, other]

theorem updatesAt_eq_nil_iff : updatesAt p us = [] ↔ p ∉ placesOf us := by
  rw [mem_placesOf]
  simp [updatesAt]

end Places

theorem foldl_apply_place (d : Document) (us : List MixedUpdate) : (us.foldl apply d).place = d.place := by
  induction us generalizing d with
  | nil => rfl
  | cons u rest ih =>
    rw [List.foldl_cons, ih, place, apply_index, apply_id, place]

@[simp] theorem ofUpdates_place (p : SchemaId × String) (own : List MixedUpdate) :
    (ofUpdates p own).place = p := foldl_apply_place ..

theorem ofUpdates_concat (some : own ≠ []) (u : MixedUpdate) :
    ofUpdates p (own ++ [u]) = (ofUpdates p own).apply u := by
  rw [ofUpdates, List.head?_append_of_ne_nil _ some, List.foldl_append]
  rfl

theorem takes_ofUpdates : (ofUpdates p own).Takes u ↔ p = u.place := by
  have here := ofUpdates_place p own
  rw [Takes, ← Prod.mk.injEq]
  exact ⟨fun same => here.symm.trans same, fun same => here.trans same⟩

theorem applyAmong_cons (u : MixedUpdate) (d : Document) (rest : List Document) :
    applyAmong u (d :: rest) = if d.Takes u then d.apply u :: rest else d :: applyAmong u rest := rfl

/-- An update goes to the document of its place, which is started if there is none. -/
theorem applyAmong_map {places : List (SchemaId × String)} (once : places.Nodup)
    (met : ∀ p ∈ places, updatesAt p us ≠ []) (new : u.place ∉ places → updatesAt u.place us = []) :
    applyAmong u (places.map fun p => ofUpdates p (updatesAt p us)) =
      (if u.place ∈ places then places else places ++ [u.place]).map fun p =>
        ofUpdates p (updatesAt p (us ++ [u])) := by
  induction places with
  | nil =>
    have only : updatesAt u.place (us ++ [u]) = [u] := by
      rw [updatesAt_concat_own rfl, new List.not_mem_nil]
      rfl
    rw [if_neg List.not_mem_nil, List.nil_append, List.map_singleton, only]
    rfl
  | cons p rest ih =>
    obtain ⟨first, others⟩ := List.nodup_cons.1 once
    obtain ⟨some, met⟩ := List.forall_mem_cons.1 met
    rw [List.map_cons, applyAmong_cons]
    by_cases here : p = u.place
    · subst here
      have kept : ∀ q ∈ rest, updatesAt q (us ++ [u]) = updatesAt q us := fun q there =>
        updatesAt_concat_other fun same => first (same ▸ there)
      rw [if_pos (takes_ofUpdates.2 rfl), if_pos List.mem_cons_self, List.map_cons,
        updatesAt_concat_own rfl, ofUpdates_concat some]
      refine congrArg _ (List.map_congr_left fun q there => ?_)
      rw [kept q there]
    · have later := ih others met fun absent => new (by simp [absent, Ne.symm here])
      have away : ¬(ofUpdates p (updatesAt p us)).Takes u := fun takes => here (takes_ofUpdates.1 takes)
      rw [if_neg away, later]
      by_cases there : u.place ∈ rest
      · simp [there, updatesAt_concat_other (Ne.symm here)]
      · simp [there, Ne.symm here, updatesAt_concat_other (Ne.symm here)]

theorem foldl_applyAmong (us : List MixedUpdate) :
    us.foldl (fun docs u => applyAmong u docs) [] =
      (placesOf us).map fun p => ofUpdates p (updatesAt p us) := by
  induction us using List.reverseRecOn with
  | nil => rfl
  | append_singleton us u ih =>
    rw [List.foldl_append, ih, placesOf_concat]
    refine applyAmong_map (nodup_placesOf us) (fun p there none => ?_) fun absent => ?_
    · exact updatesAt_eq_nil_iff.1 none there
    · exact updatesAt_eq_nil_iff.2 absent

theorem assemble_eq_map (us : List IndexUpdate) : assemble us =
    (placesOf (mixedsOf us)).map fun p => ofUpdates p (updatesAt p (mixedsOf us)) :=
  foldl_applyAmong (mixedsOf us)

section Fields

theorem field?_foldl_apply (d : Document) (us : List MixedUpdate) (name : String) :
    (us.foldl apply d).field? name = (us.filter (·.field = name)).foldl
      (fun held u => FieldSlot.after u.kind u.cardinality u.value held) (d.field? name) := by
  induction us generalizing d with
  | nil => rfl
  | cons u rest ih =>
    rw [List.foldl_cons, ih, field?_apply]
    by_cases own : u.field = name
    · simp [own]
    · simp [own, Ne.symm own]

theorem field?_ofUpdates (p : SchemaId × String) (own : List MixedUpdate) (name : String) :
    (ofUpdates p own).field? name = FieldSlot.afterAll (own.filter (·.field = name)) :=
  field?_foldl_apply ..

theorem mem_putField {f : String × FieldSlot} {fields : List (String × FieldSlot)}
    (h : f ∈ putField name slot fields) : f = (name, slot) ∨ f ∈ fields := by
  induction fields with
  | nil => exact .inl (List.mem_singleton.1 h)
  | cons first rest ih =>
    rw [putField] at h
    split at h
    · exact (List.mem_cons.1 h).imp_right (List.mem_cons_of_mem _)
    · rcases List.mem_cons.1 h with rfl | later
      · exact .inr List.mem_cons_self
      · exact (ih later).imp_right (List.mem_cons_of_mem _)

theorem Filled.put (filled : d.Filled) (some : slot ≠ .many []) : (d.put name slot).Filled := by
  intro f there
  rcases mem_putField there with rfl | before
  · exact some
  · exact filled f before

theorem Filled.clear (filled : d.Filled) (name : String) : (d.clear name).Filled :=
  fun f there => filled f (List.mem_of_mem_filter there)

theorem Filled.takeFrom (filled : d.Filled) (name : String) (v : FieldValue) :
    (d.takeFrom name v).Filled := by
  rw [Document.takeFrom]
  split
  · simp only
    split
    · exact filled.clear name
    · next some => exact filled.put (by simpa using some)
  · exact filled

theorem Filled.apply (filled : d.Filled) (u : MixedUpdate) : (d.apply u).Filled := by
  obtain ⟨_, _, _, field, cardinality, kind, v, _⟩ := u
  cases kind with
  | add =>
    cases cardinality with
    | single => exact filled.put (by simp)
    | _ => exact filled.put fun none => addTo_ne_nil _ v _ (FieldSlot.many.inj none)
  | delete =>
    cases cardinality with
    | single => exact filled.clear field
    | _ => exact filled.takeFrom field v

theorem filled_ofUpdates (p : SchemaId × String) (own : List MixedUpdate) : (ofUpdates p own).Filled := by
  suffices kept : ∀ d : Document, d.Filled → (own.foldl Document.apply d).Filled from
    kept _ fun f there => nomatch there
  induction own with
  | nil => exact fun d filled => filled
  | cons u rest ih => exact fun d filled => ih (d.apply u) (filled.apply u)

end Fields

/-- Documents with what updates leave in each: there is one for each place, in the order in which the places are
met, it has what its own updates leave, and each of its fields what its cardinality makes of its own ones. -/
structure Assembles (us : List MixedUpdate) (docs : List Document) : Prop where
  places : docs.map (·.place) = placesOf us
  own : ∀ d ∈ docs, d = ofUpdates d.place (updatesAt d.place us)
  fields : ∀ d ∈ docs, ∀ name c, (∀ u ∈ updatesAt d.place us, u.field = name → u.cardinality = c) →
    FieldSlot.Follows c ((updatesAt d.place us).filter (·.field = name)) (d.field? name)
  filled : ∀ d ∈ docs, d.Filled

theorem assembles_map (us : List MixedUpdate) :
    Assembles us ((placesOf us).map fun p => ofUpdates p (updatesAt p us)) where
  places := by
    rw [List.map_map]
    exact List.map_id'' (fun p => ofUpdates_place ..) _
  own := by simp only [List.forall_mem_map, ofUpdates_place, implies_true]
  fields := by
    simp only [List.forall_mem_map, ofUpdates_place]
    intro p _ name c one
    rw [field?_ofUpdates]
    refine FieldSlot.follows_afterAll fun u own => ?_
    obtain ⟨came, named⟩ := List.mem_filter.1 own
    exact one u came (of_decide_eq_true named)
  filled := by
    simp only [List.forall_mem_map]
    exact fun p _ => filled_ofUpdates p _

/-- Documents are put together each by itself, so that updates of different ones can change places. -/
theorem assemble_assembles (us : List IndexUpdate) :
    Assembles (mixedsOf us) (assemble us) ∧
      ∀ vs, (∀ p, updatesAt p (mixedsOf vs) = updatesAt p (mixedsOf us)) →
        (assemble vs).Perm (assemble us) := by
  rw [assemble_eq_map]
  refine ⟨assembles_map (mixedsOf us), fun vs same => ?_⟩
  have places : (placesOf (mixedsOf vs)).Perm (placesOf (mixedsOf us)) := by
    rw [List.perm_ext_iff_of_nodup (nodup_placesOf _) (nodup_placesOf _)]
    intro p
    rw [← not_iff_not, ← updatesAt_eq_nil_iff, ← updatesAt_eq_nil_iff, same p]
  rw [assemble_eq_map]
  simp only [same]
  exact places.map _

/-- Bob's year may come before Ann's two or between them. -/
example :
    let year (person : String) (n : Int) : IndexUpdate :=
      .mixed ⟨.ofNat 24, "es", .vertex person, "since", .list, .add, .ofJson (.int n), none⟩
    let ann : Document := ⟨.ofNat 24, "es", "ann", [("since", .many [.ofJson (.int 2001), .ofJson (.int 2003)])]⟩
    let bob : Document := ⟨.ofNat 24, "es", "bob", [("since", .many [.ofJson (.int 2002)])]⟩
    assemble [year "ann" 2001, year "bob" 2002, year "ann" 2003] = [ann, bob] ∧
      assemble [year "bob" 2002, year "ann" 2001, year "ann" 2003] = [bob, ann] := ⟨rfl, rfl⟩

end Document

end GraphStore
