import GraphStore.Proofs.Index.FieldCache

/-!
The steps of plans and queries on what they share. Whatever comes of them, a lookup and a registration are made
of the steps of a cache in use, so they keep the cache sound between the steps of others too. In a sound cache
a lookup gives the names that the index has now, and a name that a key has once stays.
-/
namespace GraphStore

namespace FieldSpace

/-- Steps lead from one space to the other, whatever lookups and registrations of others are under way. -/
def Leads (types : Types) (indexes : MixedIndex → Prop) (s s' : FieldSpace) : Prop :=
  ∀ lookups halfDone, FieldTraffic.Steps types indexes ⟨s, lookups, halfDone⟩ ⟨s', lookups, halfDone⟩

instance (types : Types) (indexes : MixedIndex → Prop) : Std.Refl (Leads types indexes) :=
  ⟨fun _ _ _ => .refl⟩

instance (types : Types) (indexes : MixedIndex → Prop) : IsTrans FieldSpace (Leads types indexes) :=
  ⟨fun _ _ _ first second lookups halfDone => (first lookups halfDone).trans (second lookups halfDone)⟩

/-- No name in the cache is out of date, and no registration is half done. -/
abbrev Settled (types : Types) (indexes : MixedIndex → Prop) (s : FieldSpace) : Prop :=
  FieldTraffic.Sound types indexes ⟨s, [], []⟩

variable {types : Types} {indexes : MixedIndex → Prop} {s s' : FieldSpace} {i : MixedIndex}
variable {key : SchemaId} {name : String}

theorem Leads.settled (leads : Leads types indexes s s') (apart : FieldTraffic.Apart indexes)
    (settled : Settled types indexes s) : Settled types indexes s' := (leads [] []).sound apart settled

theorem Leads.extends (leads : Leads types indexes s s') : s.defaults.Extends s'.defaults :=
  (leads [] []).extends

theorem leads_expire (id : SchemaId) : Leads types indexes s (s.expire id).2 :=
  fun _ _ => .single (.expire id)

theorem leads_invalidate (store : String) : Leads types indexes s (s.invalidate store).2 :=
  fun _ _ => .single (.invalidate store)

/-- A lookup is made of steps, and so is what others do while it consults the schema. -/
theorem moves_namesMeanwhile {meanwhile : FieldSpace → FieldSpace} (one : indexes i)
    (others : ∀ s, Leads types indexes s (meanwhile s)) :
    Attempt.Moves (Leads types indexes) (namesMeanwhile meanwhile types i) := by
  intro s
  rw [namesMeanwhile]
  cases missed : s.cache.start i with
  | inl names => exact Std.Refl.refl s
  | inr l =>
    intro lookups halfDone
    have opened : FieldTraffic.Steps types indexes ⟨s, lookups, halfDone⟩
        ⟨s, (l, none) :: lookups, halfDone⟩ := .single (.start one missed)
    have waited : Leads types indexes s (if FieldNames.askTypes i then meanwhile s else s) := by
      split
      · exact others s
      · exact Std.Refl.refl s
    have ready := opened.trans (waited _ _)
    simp only [finish]
    cases made : FieldNames.ofIndex types _ l.index with
    | ok names =>
      have read := ready.tail (.read [] lookups rfl made)
      exact read.tail (.store [] lookups rfl)
    | error fault => exact ready.tail (.abandon [] lookups rfl)

theorem moves_names (one : indexes i) : Attempt.Moves (Leads types indexes) (names types i) :=
  moves_namesMeanwhile one fun s => Std.Refl.refl s

theorem moves_resolve (one : indexes i) (key : SchemaId) :
    Attempt.Moves (Leads types indexes) (resolve types i key) := by
  refine (moves_names one).bind fun names => ?_
  split
  · exact .pure _
  · exact .of_still fun _ => rfl

theorem moves_ensureRegistered (one : indexes i) (f : DefaultField) (registrar : Registrar) :
    Attempt.Moves (Leads types indexes) (ensureRegistered i f registrar) := by
  intro s lookups halfDone
  rw [ensureRegistered_run]
  cases run : learn i f registrar s with
  | mk answer asked =>
    split
    · next learned same =>
      obtain ⟨rfl, rfl⟩ := Prod.mk.inj same
      have half : FieldTraffic.Steps types indexes ⟨s, lookups, halfDone⟩
          ⟨asked, lookups, i.id :: halfDone⟩ := .single (.learn registrar one run)
      exact half.tail (.settle [] halfDone rfl)
    · next answer' asked' unlearned same =>
      obtain ⟨rfl, rfl⟩ := Prod.mk.inj same
      exact .single (.refuse registrar one run unlearned)

theorem ensureRegistered_ok {f : DefaultField} {registrar : Registrar} {learned : Bool}
    (h : ensureRegistered i f registrar s = (.ok learned, s')) :
    s'.defaults.isRegistered ⟨i.store, i.name, f.name⟩ = true := by
  simp only [ensureRegistered] at h
  split at h
  · next known =>
    obtain ⟨-, rfl⟩ := Prod.mk.inj h
    exact known
  · split at h
    · cases h
    · obtain ⟨-, rfl⟩ := Prod.mk.inj h
      exact decide_eq_true List.mem_cons_self

/-- In a settled space a lookup gives the names that the index has now, and no default field is touched. -/
theorem Settled.names_run (settled : Settled types indexes s) (apart : FieldTraffic.Apart indexes)
    (one : indexes i) : (names types i s).1 = liftFault (FieldNames.ofIndex types s.defaults i) ∧
      (names types i s).2.defaults = s.defaults := by
  rw [names, namesMeanwhile]
  cases looked : s.cache.start i with
  | inl names =>
    refine ⟨?_, rfl⟩
    rw [FieldCache.start] at looked
    split at looked
    · next held cached =>
      obtain rfl := Sum.inl.inj looked
      obtain ⟨j, other, same, current⟩ := settled.cached i.id held cached
      obtain rfl := apart j i other one (.inl same)
      rw [current.resolve_left List.not_mem_nil]
      rfl
    · cases looked
  | inr l =>
    have opened : l.index = i := by
      rw [FieldCache.start] at looked
      split at looked
      · cases looked
      · rw [← Sum.inr.inj looked]
    simp only [finish, id, ite_self, opened]
    cases FieldNames.ofIndex types s.defaults i with
    | ok names => exact ⟨rfl, rfl⟩
    | error fault => exact ⟨rfl, rfl⟩

/-- In a settled space what becomes of a lookup depends only on the name that the key has now. -/
theorem Settled.resolve_result (settled : Settled types indexes s) (apart : FieldTraffic.Apart indexes)
    (one : indexes i) : (resolve types i key s).1 =
      liftFault ((FieldNames.ofIndex types s.defaults i).map (·.get? key)) >>= fun found =>
        match found with
        | some name => .ok name
        | none => .error (unnamed i key) := by
  obtain ⟨result, -⟩ := settled.names_run apart one
  cases run : names types i s with
  | mk looked t =>
    rw [run] at result
    cases made : FieldNames.ofIndex types s.defaults i with
    | error fault =>
      rw [made] at result
      obtain rfl : looked = .error (.core fault) := result
      rw [resolve, Attempt.bind_run_error run]
      rfl
    | ok names =>
      rw [made] at result
      obtain rfl : looked = .ok names := result
      rw [resolve, Attempt.bind_run_ok run]
      show _ = (match names.get? key with
        | some name => Except.ok name
        | none => .error (unnamed i key))
      cases names.get? key <;> rfl

theorem Settled.resolve_ok_iff (settled : Settled types indexes s) (apart : FieldTraffic.Apart indexes)
    (one : indexes i) : (resolve types i key s).1 = .ok name ↔
      ∃ names, FieldNames.ofIndex types s.defaults i = .ok names ∧ names.get? key = some name := by
  rw [settled.resolve_result apart one]
  cases FieldNames.ofIndex types s.defaults i with
  | error fault =>
    show Except.error (IndexFault.core fault) = .ok name ↔ _
    simp
  | ok names =>
    show (match names.get? key with
      | some name => Except.ok name
      | none => .error (unnamed i key)) = .ok name ↔ _
    cases found : names.get? key with
    | some name' => simp [found]
    | none => simp [found]

/-- A name that a key has once stays, whatever steps follow. -/
theorem Settled.resolve_mono (settled : Settled types indexes s) (apart : FieldTraffic.Apart indexes)
    (one : indexes i) (keyed : s.defaults.Keyed) (leads : Leads types indexes s s')
    (named : (resolve types i key s).1 = .ok name) : (resolve types i key s').1 = .ok name := by
  obtain ⟨names, made, found⟩ := (settled.resolve_ok_iff apart one).1 named
  obtain ⟨names', made'⟩ := FieldNames.ofIndex_ok_of made s'.defaults
  exact ((leads.settled apart settled).resolve_ok_iff apart one).2
    ⟨names', made', FieldNames.get?_mono keyed leads.extends made made' found⟩

end FieldSpace

end GraphStore
