import GraphStore.Proofs.Index.Document
import GraphStore.Proofs.Index.Maintenance

/-!
Updates that are gathered before they are applied. A set takes no update that is like one it holds, wherever
that one stands. If nothing between the two undid the first, the second had nothing left to do, and the set
does what the updates do one by one. If something did, the second is lost.
-/
namespace GraphStore

namespace IndexUpdate

def bare : IndexUpdate → IndexUpdate
  | composite u => composite u
  | mixed u => mixed u.bare

/-- The update would be taken for the held one. -/
def Absorbs (held u : IndexUpdate) : Prop := (held.absorb? u).isSome

/-- An update that changes what another one did. -/
def Undoes : IndexUpdate → IndexUpdate → Prop
  | composite x, composite u =>
    x.index = u.index ∧ IndexContent.place x = IndexContent.place u ∧
      IndexContent.outcome x ≠ IndexContent.outcome u
  | mixed x, mixed u => x.Undoes u
  | _, _ => False

end IndexUpdate

/-- Composite updates of a list, in order. -/
def compositesOf (us : List IndexUpdate) : List CompositeUpdate := us.filterMap (·.composite?)

def mixedsOf (us : List IndexUpdate) : List MixedUpdate := us.filterMap (·.mixed?)

@[simp] theorem mixedsOf_composite (u : CompositeUpdate) (us : List IndexUpdate) :
    mixedsOf (.composite u :: us) = mixedsOf us := rfl

@[simp] theorem mixedsOf_mixed (u : MixedUpdate) (us : List IndexUpdate) :
    mixedsOf (.mixed u :: us) = u :: mixedsOf us := rfl

theorem mem_mixedsOf {u : MixedUpdate} {us : List IndexUpdate} : u ∈ mixedsOf us ↔ .mixed u ∈ us := by
  induction us with
  | nil => simp [mixedsOf]
  | cons x rest ih => cases x <;> simp [ih]

/-- No update comes back after another one undid it, and each field has one cardinality. -/
structure Steady (us : List IndexUpdate) : Prop where
  undisturbed : ∀ front held between u rest, us = front ++ held :: between ++ u :: rest →
    held.Absorbs u → ∀ x ∈ between, ¬x.Undoes u
  cardinality : ∀ x ∈ mixedsOf us, ∀ y ∈ mixedsOf us, x.index = y.index → x.field = y.field →
    x.cardinality = y.cardinality

/-- The values of the fields that updates go to are told apart where they are not those of a LIST. -/
def Document.Fits (d : Document) (us : List IndexUpdate) : Prop :=
  ∀ u ∈ mixedsOf us, d.Takes u → u.cardinality ≠ .list → (d.content u.field).Once

/-- Updates that leave the same entries in every composite index, and the same values in every document. -/
structure SameEffect (us vs : List IndexUpdate) : Prop where
  entries : ∀ id held, IndexContent.applyAll id held (compositesOf us) =
    IndexContent.applyAll id held (compositesOf vs)
  documents : ∀ d : Document, d.Fits vs → (d.applyAll (mixedsOf us)).Same (d.applyAll (mixedsOf vs))

namespace IndexUpdate

variable {held arriving merged x y u : IndexUpdate}

theorem bare_of_absorb (h : held.absorb? arriving = some merged) : merged.bare = held.bare := by
  cases held <;> cases arriving <;> simp only [absorb?, reduceCtorEq] at h
  all_goals
    split at h
    · obtain rfl := Option.some.inj h
      rfl
    · cases h

theorem absorbs_composite {a b : CompositeUpdate} : (composite a).Absorbs (composite b) ↔ a = b := by
  rw [Absorbs, absorb?]
  split <;> simp [*]

theorem absorbs_mixed {a b : MixedUpdate} :
    (mixed a).Absorbs (mixed b) ↔ a.sameTarget b = true := by
  rw [Absorbs, absorb?]
  split <;> simp [*]

/-- What stands beside its value does not tell what an update absorbs. -/
theorem Absorbs.of_bare (h : x.Absorbs u) (same : y.bare = x.bare) : y.Absorbs u := by
  cases x with
  | composite a =>
    cases y with
    | composite b =>
      obtain rfl : b = a := composite.inj same
      exact h
    | mixed b => cases same
  | mixed a =>
    cases y with
    | composite b => cases same
    | mixed b =>
      cases u with
      | composite c => cases h
      | mixed c =>
        have target : b.bare.sameTarget c = a.bare.sameTarget c := by rw [mixed.inj same]
        have like : a.sameTarget c = true := absorbs_mixed.1 h
        exact absorbs_mixed.2 (target.trans like)

end IndexUpdate

section Parts

variable {us vs : List IndexUpdate}

theorem compositesOf_append : compositesOf (us ++ vs) = compositesOf us ++ compositesOf vs :=
  List.filterMap_append ..

theorem mixedsOf_append : mixedsOf (us ++ vs) = mixedsOf us ++ mixedsOf vs := List.filterMap_append ..

theorem compositesOf_bare (h : us.map (·.bare) = vs.map (·.bare)) : compositesOf us = compositesOf vs := by
  have bare (l : List IndexUpdate) : (l.map (·.bare)).filterMap (·.composite?) = compositesOf l := by
    rw [List.filterMap_map, compositesOf]
    congr 1
    funext u
    cases u <;> rfl
  rw [← bare, h, bare]

theorem mixedsOf_bare (h : us.map (·.bare) = vs.map (·.bare)) :
    (mixedsOf us).map (·.bare) = (mixedsOf vs).map (·.bare) := by
  have bare (l : List IndexUpdate) : (l.map (·.bare)).filterMap (·.mixed?) = (mixedsOf l).map (·.bare) := by
    rw [List.filterMap_map, mixedsOf, List.map_filterMap]
    congr 1
    funext u
    cases u <;> rfl
  rw [← bare, h, bare]

end Parts

namespace UpdateSet

variable {s : UpdateSet} {u : IndexUpdate} {us held merged : List IndexUpdate}

theorem bare_absorbInto (h : absorbInto u held = some merged) :
    merged.map (·.bare) = held.map (·.bare) ∧ ∃ x ∈ held, x.Absorbs u := by
  induction held generalizing merged with
  | nil => cases h
  | cons first rest ih =>
    rw [absorbInto] at h
    split at h
    · next one absorbed =>
      obtain rfl := Option.some.inj h
      rw [List.map_cons, List.map_cons, IndexUpdate.bare_of_absorb absorbed]
      exact ⟨rfl, first, List.mem_cons_self, by rw [IndexUpdate.Absorbs, absorbed]; rfl⟩
    · obtain ⟨rest', later, rfl⟩ := Option.map_eq_some_iff.1 h
      obtain ⟨kept, x, there, absorbs⟩ := ih later
      rw [List.map_cons, List.map_cons, kept]
      exact ⟨rfl, x, List.mem_cons_of_mem _ there, absorbs⟩

theorem not_absorbs_of_none (h : absorbInto u held = none) : ∀ x ∈ held, ¬x.Absorbs u := by
  induction held with
  | nil => simp
  | cons first rest ih =>
    rw [absorbInto] at h
    split at h
    · cases h
    · next apart =>
      refine List.forall_mem_cons.2 ⟨?_, ih (Option.map_eq_none_iff.1 h)⟩
      simp [IndexUpdate.Absorbs, apart]

/-- An update is one more, or it is taken for one that the set holds. -/
theorem insert_cases (s : UpdateSet) (u : IndexUpdate) :
    (s.insert u).2.updates = s.updates ++ [u] ∧ (∀ x ∈ s.updates, ¬x.Absorbs u) ∨
      (s.insert u).2.updates.map (·.bare) = s.updates.map (·.bare) ∧ ∃ x ∈ s.updates, x.Absorbs u := by
  rw [insert]
  split
  · next merged absorbed => exact .inr (bare_absorbInto absorbed)
  · next apart => exact .inl ⟨rfl, not_absorbs_of_none apart⟩

theorem absorbInto_composite {x : CompositeUpdate} (h : absorbInto (.composite x) held = some merged) :
    merged = held := by
  induction held generalizing merged with
  | nil => cases h
  | cons first rest ih =>
    rw [absorbInto] at h
    split at h
    · next one absorbed =>
      obtain rfl := Option.some.inj h
      obtain ⟨rfl, -⟩ | ⟨-, -, d, same⟩ := IndexUpdate.absorb?_some absorbed
      · rfl
      · cases same
    · obtain ⟨rest', later, rfl⟩ := Option.map_eq_some_iff.1 h
      rw [ih later]

/-- A value goes to the end of a set that holds none for its target, and composite updates pass it by. -/
theorem mixeds_insert (apart : ∀ x, u = .mixed x → ∀ y ∈ s.mixeds, y.sameTarget x = false) :
    (s.insert u).2.mixeds = s.mixeds ++ mixedsOf [u] := by
  have more (taken : (s.insert u).2.updates = s.updates ++ [u]) :
      (s.insert u).2.mixeds = s.mixeds ++ mixedsOf [u] := by
    rw [mixeds, taken]
    exact mixedsOf_append
  cases u with
  | mixed x =>
    obtain ⟨taken, -⟩ | ⟨-, y, there, absorbs⟩ := insert_cases s (.mixed x)
    · exact more taken
    · cases y with
      | composite y => cases absorbs
      | mixed y =>
        have other := apart x rfl y (mem_mixedsOf.2 there)
        rw [IndexUpdate.absorbs_mixed.1 absorbs] at other
        cases other
  | composite x =>
    cases found : absorbInto (.composite x) s.updates with
    | none => exact more (by rw [insert, found])
    | some merged =>
      obtain rfl := absorbInto_composite found
      rw [insert, found]
      exact (List.append_nil _).symm

/-- Values for targets of their own come into a set one by one. -/
theorem mixeds_insertAll (apart : (s.mixeds ++ mixedsOf us).Pairwise fun x y => x.sameTarget y = false) :
    (s.insertAll us).mixeds = s.mixeds ++ mixedsOf us := by
  induction us generalizing s with
  | nil => exact (List.append_nil _).symm
  | cons u rest ih =>
    have split : mixedsOf ([u] ++ rest) = mixedsOf [u] ++ mixedsOf rest := mixedsOf_append
    rw [List.singleton_append] at split
    rw [split, ← List.append_assoc] at apart ⊢
    have first : (s.insert u).2.mixeds = s.mixeds ++ mixedsOf [u] := by
      refine mixeds_insert fun x same y there => ?_
      subst same
      obtain ⟨front, -, -⟩ := List.pairwise_append.1 apart
      exact (List.pairwise_append.1 front).2.2 y there x (List.mem_singleton.2 rfl)
    rw [← first] at apart ⊢
    exact ih apart

theorem insertAll_concat (s : UpdateSet) (us : List IndexUpdate) (u : IndexUpdate) :
    s.insertAll (us ++ [u]) = ((s.insertAll us).insert u).2 := by
  rw [insertAll, List.foldl_append]
  rfl

/-- What a set holds came to it. -/
theorem source_of_mem {x : IndexUpdate} (h : x ∈ (empty.insertAll us).updates) :
    ∃ y ∈ us, y.bare = x.bare := by
  suffices kept : ∀ b ∈ (empty.insertAll us).updates.map (·.bare), b ∈ us.map (·.bare) from
    List.mem_map.1 (kept x.bare (List.mem_map_of_mem h))
  clear h
  induction us using List.reverseRecOn with
  | nil => simp [insertAll, empty]
  | append_singleton us u ih =>
    intro b there
    rw [insertAll_concat] at there
    rw [List.map_append, List.mem_append]
    obtain ⟨more, -⟩ | ⟨kept, -⟩ := insert_cases (empty.insertAll us) u
    · rw [more, List.map_append, List.mem_append] at there
      exact there.imp (ih b) id
    · rw [kept] at there
      exact .inl (ih b there)

end UpdateSet

namespace IndexContent

variable {id : SchemaId} {held : IndexContent} {us vs : List CompositeUpdate} {spot : Bytes × Bytes}

theorem applyAll_append : applyAll id held (us ++ vs) = applyAll id (applyAll id held us) vs := by
  rw [applyAll, List.filter_append, List.foldl_append]
  rfl

theorem applyAll_cons_own {u : CompositeUpdate} (own : u.index = id) :
    applyAll id held (u :: us) = applyAll id (held.apply u) us := by
  rw [applyAll, List.filter_cons_of_pos (by simpa using own), List.foldl_cons]
  rfl

theorem applyAll_cons_foreign {u : CompositeUpdate} (foreign : u.index ≠ id) :
    applyAll id held (u :: us) = applyAll id held us := by
  rw [applyAll, List.filter_cons_of_neg (by simpa using foreign)]
  rfl

/-- What stands at a place stays through updates that leave the same there. -/
theorem applyAll_keeps {left : Option Bytes} (stands : held spot = left)
    (agree : ∀ x ∈ us, x.index = id → place x = spot → outcome x = left) :
    applyAll id held us spot = left := by
  induction us generalizing held with
  | nil => exact stands
  | cons x rest ih =>
    obtain ⟨first, others⟩ := List.forall_mem_cons.1 agree
    by_cases own : x.index = id
    · rw [applyAll_cons_own own]
      refine ih ?_ others
      rw [apply]
      split
      · next struck => exact first own struck.symm
      · exact stands
    · rw [applyAll_cons_foreign own]
      exact ih stands others

/-- An update whose outcome stands already changes nothing. -/
theorem apply_settled {u : CompositeUpdate} (stands : held (place u) = outcome u) : held.apply u = held := by
  funext spot
  rw [apply]
  split
  · next struck => rw [struck, stands]
  · rfl

end IndexContent

variable {us : List IndexUpdate} {u : IndexUpdate}

theorem Steady.of_append {vs : List IndexUpdate} (steady : Steady (us ++ vs)) : Steady us where
  undisturbed front held between u rest shape :=
    steady.undisturbed front held between u (rest ++ vs) (by simp [shape])
  cardinality x there y there' :=
    steady.cardinality x (by simp [mixedsOf_append, there]) y (by simp [mixedsOf_append, there'])

/-- The last update repeats another one, and nothing between them undid it. -/
theorem Steady.repeated (steady : Steady (us ++ [u]))
    (seen : ∃ x ∈ (UpdateSet.empty.insertAll us).updates, x.Absorbs u) :
    ∃ front held between, us = front ++ held :: between ∧ held.Absorbs u ∧
      ∀ x ∈ between, ¬x.Undoes u := by
  obtain ⟨x, there, absorbs⟩ := seen
  obtain ⟨held, came, same⟩ := UpdateSet.source_of_mem there
  have like := absorbs.of_bare same
  obtain ⟨front, between, rfl⟩ := List.append_of_mem came
  exact ⟨front, held, between, rfl, like, steady.undisturbed front held between u [] rfl like⟩

/-- A composite update that repeats another one changes no entry. -/
theorem entries_of_repeated {front between : List IndexUpdate} {u : CompositeUpdate} {id : SchemaId}
    {held : IndexContent} (own : u.index = id) (free : ∀ x ∈ between, ¬x.Undoes (.composite u)) :
    (IndexContent.applyAll id held (compositesOf (front ++ .composite u :: between))).apply u =
      IndexContent.applyAll id held (compositesOf (front ++ .composite u :: between)) := by
  apply IndexContent.apply_settled
  rw [compositesOf_append, IndexContent.applyAll_append]
  show IndexContent.applyAll id _ (u :: compositesOf between) _ = _
  rw [IndexContent.applyAll_cons_own own]
  refine IndexContent.applyAll_keeps (if_pos rfl) fun x there own' struck => ?_
  by_contra other
  obtain ⟨y, member, same⟩ := List.mem_filterMap.1 there
  cases y with
  | composite z =>
    obtain rfl := Option.some.inj same
    exact free _ member ⟨own'.trans own.symm, struck, other⟩
  | mixed z => cases same

/-- A mixed update that repeats another one is settled. -/
theorem settled_of_repeated {front between : List IndexUpdate} {x u : MixedUpdate} {d : Document}
    (steady : Steady (front ++ .mixed x :: between ++ [.mixed u]))
    (fits : d.Fits (front ++ .mixed x :: between ++ [.mixed u])) (like : x.sameTarget u = true)
    (free : ∀ y ∈ between, ¬y.Undoes (.mixed u)) (takes : d.Takes u) :
    u.Settled ((d.applyAll (mixedsOf (front ++ .mixed x :: between))).content u.field) := by
  have parts : mixedsOf (front ++ .mixed x :: between ++ [.mixed u]) =
      mixedsOf front ++ x :: mixedsOf between ++ [u] := by
    rw [mixedsOf_append, mixedsOf_append]
    rfl
  have last : u ∈ mixedsOf (front ++ .mixed x :: between ++ [.mixed u]) := by
    rw [parts]
    exact List.mem_append_right _ (List.mem_singleton.2 rfl)
  obtain ⟨list, cardinality, index, -, element, field, -⟩ := MixedUpdate.sameTarget_iff.1 like
  have bound : u.cardinality ≠ .list := cardinality ▸ list
  have takes' : d.Takes x := ⟨takes.1.trans index.symm, takes.2.trans (by rw [element])⟩
  -- all updates of the field have the cardinality of the last one
  have alike : ∀ y ∈ mixedsOf front ++ x :: mixedsOf between ++ [u], d.Takes y → y.field = u.field →
      y.cardinality = u.cardinality := by
    intro y there taken own
    refine steady.cardinality y (parts ▸ there) u last ?_ own
    exact taken.1.symm.trans takes.1
  have start : (d.content u.field).Once := fits u last takes bound
  have before : ((d.applyAll (mixedsOf front)).content u.field).Once := by
    refine Document.once_applyAll start fun y there taken own => ?_
    rw [alike y (by simp [there]) taken own]
    exact bound
  have done : u.Settled (((d.applyAll (mixedsOf front)).apply x).content u.field) := by
    rw [Document.content_apply, if_pos field.symm]
    exact FieldContent.settled_of_sameTarget like before
  rw [mixedsOf_append, Document.applyAll_append]
  show u.Settled ((Document.applyAll _ (x :: mixedsOf between)).content u.field)
  rw [Document.applyAll_cons_takes ((Document.takes_applyAll ..).2 takes')]
  refine Document.settled_applyAll done bound ?_ fun y there taken own => ?_
  · rwa [Document.takes_apply, Document.takes_applyAll]
  · rw [Document.takes_apply, Document.takes_applyAll] at taken
    refine ⟨alike y (by simp [there]) taken own, ?_⟩
    exact free _ (mem_mixedsOf.1 there)

theorem Document.Fits.of_append {d : Document} {vs : List IndexUpdate} (fits : d.Fits (us ++ vs)) :
    d.Fits us := fun u there => fits u (by simp [mixedsOf_append, there])

/-- One more update at the end has one effect after either of two that have one effect. -/
theorem SameEffect.concat {vs : List IndexUpdate} (same : SameEffect vs us) (u : IndexUpdate) :
    SameEffect (vs ++ [u]) (us ++ [u]) where
  entries id held := by
    rw [compositesOf_append, compositesOf_append, IndexContent.applyAll_append,
      IndexContent.applyAll_append, same.entries]
  documents d fits := by
    have before := same.documents d fits.of_append
    rw [mixedsOf_append, mixedsOf_append, Document.applyAll_append, Document.applyAll_append]
    cases u with
    | composite u => exact before
    | mixed u =>
      show (Document.applyAll _ [u]).Same (Document.applyAll _ [u])
      by_cases takes : (d.applyAll (mixedsOf us)).Takes u
      · rw [Document.applyAll_cons_takes takes, Document.applyAll_cons_takes (before.takes.2 takes)]
        exact before.apply u
      · rw [Document.applyAll_cons_passes takes,
          Document.applyAll_cons_passes fun taken => takes (before.takes.1 taken)]
        exact before

/-- What stands beside the values of updates has no part in their effect. -/
theorem SameEffect.of_bare {vs ws : List IndexUpdate} (same : SameEffect vs us)
    (bare : ws.map (·.bare) = vs.map (·.bare)) : SameEffect ws us where
  entries id held := by rw [compositesOf_bare bare, same.entries]
  documents d fits := by
    obtain ⟨index, id, content⟩ := same.documents d fits
    have place (l : List IndexUpdate) := d.applyAll_place (mixedsOf l)
    refine ⟨?_, ?_, fun name => ?_⟩
    · rw [(place ws).1, (place us).1]
    · rw [(place ws).2, (place us).2]
    · rw [← Document.content_applyAll_bare, mixedsOf_bare bare, Document.content_applyAll_bare]
      exact content name

/-- An update that repeats another one has no effect of its own. -/
theorem SameEffect.of_repeated {vs : List IndexUpdate} (same : SameEffect vs us)
    (steady : Steady (us ++ [u])) (seen : ∃ x ∈ (UpdateSet.empty.insertAll us).updates, x.Absorbs u) :
    SameEffect vs (us ++ [u]) := by
  obtain ⟨front, held, between, rfl, like, free⟩ := steady.repeated seen
  cases u with
  | composite u =>
    refine ⟨fun id content => ?_, fun d fits => ?_⟩
    · cases held with
      | mixed x => cases like
      | composite x =>
        obtain rfl := IndexUpdate.absorbs_composite.1 like
        rw [same.entries, @compositesOf_append _ [_], IndexContent.applyAll_append]
        show _ = IndexContent.applyAll id _ [x]
        by_cases own : x.index = id
        · rw [IndexContent.applyAll_cons_own own, entries_of_repeated own free]
          rfl
        · rw [IndexContent.applyAll_cons_foreign own]
          rfl
    · rw [@mixedsOf_append _ [_], mixedsOf_composite, ← mixedsOf_append, List.append_nil]
      exact same.documents d fits.of_append
  | mixed u =>
    refine ⟨fun id content => ?_, fun d fits => ?_⟩
    · rw [@compositesOf_append _ [_], show compositesOf [.mixed u] = [] from rfl, List.append_nil]
      exact same.entries id content
    · cases held with
      | composite x => cases like
      | mixed x =>
        have before := same.documents d fits.of_append
        rw [@mixedsOf_append _ [_], Document.applyAll_append]
        show Document.Same _ (Document.applyAll _ [u])
        by_cases takes : d.Takes u
        · have target := IndexUpdate.absorbs_mixed.1 like
          have settled := settled_of_repeated steady fits target free takes
          rw [Document.applyAll_cons_takes ((Document.takes_applyAll ..).2 takes)]
          obtain ⟨list, cardinality, -⟩ := MixedUpdate.sameTarget_iff.1 target
          exact before.of_settled settled (cardinality ▸ list)
        · rw [Document.applyAll_cons_passes fun taken => takes ((Document.takes_applyAll ..).1 taken)]
          exact before

/-- Updates of which none comes back after it was undone do the same from a set as one by one. -/
theorem Steady.sameEffect (steady : Steady us) : SameEffect (UpdateSet.empty.insertAll us).updates us := by
  induction us using List.reverseRecOn with
  | nil => exact ⟨fun _ _ => rfl, fun d _ => .refl d⟩
  | append_singleton us u ih =>
    have before := ih steady.of_append
    rw [UpdateSet.insertAll_concat]
    obtain ⟨more, -⟩ | ⟨kept, seen⟩ := UpdateSet.insert_cases (UpdateSet.empty.insertAll us) u
    · rw [more]
      exact before.concat u
    · exact (before.of_bare kept).of_repeated steady seen

/-- A year that comes to the document of a vertex. -/
def annYear : MixedUpdate :=
  ⟨.ofNat 21, "es", .vertex "ann", "since", .single, .add, .ofJson (.int 2001), none⟩

theorem Steady.sameEffect_annYear :
    (UpdateSet.empty.insertAll [.mixed annYear, .mixed annYear]).size = 1 ∧
      SameEffect (UpdateSet.empty.insertAll [.mixed annYear, .mixed annYear]).updates
        [.mixed annYear, .mixed annYear] := by
  refine ⟨rfl, Steady.sameEffect ⟨?_, ?_⟩⟩
  · intro front held between u rest shape _ x there
    have sizes := congrArg List.length shape
    have room := List.length_pos_of_mem there
    simp only [List.length_append, List.length_cons, List.length_nil] at sizes
    omega
  · intro x there y there' _ _
    have only (z : MixedUpdate) (member : z ∈ mixedsOf [.mixed annYear, .mixed annYear]) : z = annYear := by
      simpa [mixedsOf, IndexUpdate.mixed?] using member
    rw [only x there, only y there']

namespace Planner

variable {c : Planner} {space space' : FieldSpace}

/-- Plan mutations into one set, one after another. -/
def planAll (c : Planner) (mutations : List Mutation) :
    Attempt (FieldSpace × UpdateSet) IndexFault Unit := Attempt.each c.planInto mutations

/-- The updates of a mutation, as they come. -/
def updates (c : Planner) (mutation : Mutation) : Attempt FieldSpace IndexFault (List IndexUpdate) :=
  fun space =>
    match c.planMutation mutation ⟨space, []⟩ with
    | (result, after) => (result.map fun _ => after.planned, after.space)

/-- The updates of mutations, one after another. -/
def updatesOf (c : Planner) : List Mutation → Attempt FieldSpace IndexFault (List IndexUpdate)
  | [] => return []
  | mutation :: rest => do
    let first ← c.updates mutation
    return first ++ (← updatesOf c rest)

theorem planInto_of_updates {mutation : Mutation} (h : c.updates mutation space = (.ok us, space'))
    (set : UpdateSet) : c.planInto mutation (space, set) = (.ok (), space', set.insertAll us) := by
  simp only [updates, Prod.mk.injEq] at h
  obtain ⟨result, rfl⟩ := h
  simp only [planInto]
  cases planned : (c.planMutation mutation ⟨space, []⟩).1 with
  | ok done =>
    rw [planned] at result
    rw [← Except.ok.inj result]
  | error fault =>
    rw [planned] at result
    cases result

theorem planAll_of_updatesOf {mutations : List Mutation} (h : c.updatesOf mutations space = (.ok us, space'))
    (set : UpdateSet) : c.planAll mutations (space, set) = (.ok (), space', set.insertAll us) := by
  induction mutations generalizing space us set with
  | nil =>
    obtain ⟨none, rfl⟩ := Prod.mk.inj h
    rw [← Except.ok.inj none]
    rfl
  | cons mutation rest ih =>
    obtain ⟨first, middle, planned, h⟩ := Attempt.bind_run_ok_iff.1 h
    obtain ⟨others, final, more, made⟩ := Attempt.bind_run_ok_iff.1 h
    obtain ⟨all, rfl⟩ := Prod.mk.inj made
    rw [← Except.ok.inj all]
    refine (Attempt.bind_run_ok (planInto_of_updates planned set)).trans ?_
    refine (ih more (set.insertAll first)).trans ?_
    rw [UpdateSet.insertAll, UpdateSet.insertAll, UpdateSet.insertAll, List.foldl_append]

/-- The years of vertices, for a search backend. -/
def searchedSince : MixedIndex :=
  ⟨.ofNat 21, "search", "es", .vertex, [⟨Schema.since.id, .enabled, .default, none⟩], none, .managed⟩

def searchPlanner : Planner :=
  ⟨⟨.ofList [(searchedSince.id, .mixed searchedSince)], [(searchedSince.name, searchedSince.id)],
    .ofList [(Schema.since.id, [searchedSince.id])]⟩, Schema.acquaintance.lookup, .sha256 none, .none, none⟩

/-- Ann gets a year, loses it, and gets the same year again. -/
def yearAgain : List Mutation :=
  [.vertexProperty ⟨"ann", none, []⟩ ⟨"p", Schema.since.id, .int 2001, .empty⟩ .add,
    .vertexProperty ⟨"ann", none, []⟩ ⟨"p", Schema.since.id, .int 2001, .empty⟩ .delete,
    .vertexProperty ⟨"ann", none, []⟩ ⟨"q", Schema.since.id, .int 2001, .empty⟩ .add]

/-- What comes back is not in the set again, and so Ann ends without a year. -/
theorem planAll_yearAgain_loses : ∃ us set space,
    searchPlanner.updatesOf yearAgain (.new .empty) = (.ok us, space) ∧
      searchPlanner.planAll yearAgain (.new .empty, .empty) = (.ok (), space, set) ∧
      ¬SameEffect set.updates us := by
  obtain ⟨us, space, planned, shape⟩ : ∃ us space,
      searchPlanner.updatesOf yearAgain (.new .empty) = (.ok us, space) ∧
        us = [.mixed annYear, .mixed { annYear with kind := .delete }, .mixed annYear] := ⟨_, _, rfl, rfl⟩
  refine ⟨us, UpdateSet.empty.insertAll us, space, planned, planAll_of_updatesOf planned .empty, ?_⟩
  intro same
  subst shape
  have document := same.documents (.new annYear.index "es" "ann") fun _ _ _ _ => .nil
  have lost : FieldContent.Same .absent (.single (.int 2001)) := document.content "since"
  cases lost

end Planner

end GraphStore
