import GraphStore.Index.FieldNames
import GraphStore.Proofs.Attempt
import GraphStore.Proofs.KeyMap

/-!
What names an index has on its backend. A key has the name that its declared field gives it, or else that of
the default field which the index has learned of. What other indexes learn makes no difference, and what an
index learns takes no name away.
-/
namespace GraphStore

namespace DefaultFields

/-- Every field stands under its own key. -/
def Keyed (d : DefaultFields) : Prop := ∀ key f, d.field? key = some f → f.key = key

/-- The same fields, and no registration less. -/
structure Extends (d e : DefaultFields) : Prop where
  fields : e.fields = d.fields
  registered : ∀ r ∈ d.registered, r ∈ e.registered

theorem Extends.refl (d : DefaultFields) : d.Extends d := ⟨rfl, fun _ there => there⟩

theorem Extends.trans {d e f : DefaultFields} (first : d.Extends e) (second : e.Extends f) : d.Extends f :=
  ⟨second.fields.trans first.fields, fun r there => second.registered r (first.registered r there)⟩

theorem extends_register (d : DefaultFields) (r : Registration) : d.Extends (d.register r) :=
  ⟨rfl, fun _ there => List.mem_cons_of_mem r there⟩

theorem Extends.keyed {d e : DefaultFields} (more : d.Extends e) (keyed : d.Keyed) : e.Keyed := by
  intro key f
  rw [field?, more.fields]
  exact keyed key f

theorem keyed_empty : empty.Keyed := nofun

theorem Keyed.insert {d : DefaultFields} (keyed : d.Keyed) (f : DefaultField) : (d.insert f).Keyed := by
  intro key g
  rw [field?, DefaultFields.insert, KeyMap.get?_insert]
  split
  · next here =>
    rintro same
    rw [← Option.some.inj same, here]
  · exact keyed key g

/-- The field of a key, if the index has learned of it, is the one of that key among those it knows. -/
theorem find?_registeredFields {d : DefaultFields} (keyed : d.Keyed) (store index : String)
    (key : SchemaId) : (d.registeredFields store index).find? (·.key = key) =
      (d.field? key).filter fun f => d.isRegistered ⟨store, index, f.name⟩ := by
  have bound {f : DefaultField} (there : f ∈ d.fields.values) : d.field? f.key = some f := by
    obtain ⟨⟨k, g⟩, member, rfl⟩ := List.mem_map.1 there
    have known : d.field? k = some g := KeyMap.mem_entries.1 member
    rw [keyed k g known, known]
  rw [registeredFields, List.find?_filter]
  cases found : d.fields.values.find? fun f =>
      decide (d.isRegistered ⟨store, index, f.name⟩ = true ∧ decide (f.key = key) = true) with
  | some f =>
    have both := List.find?_some found
    simp only [decide_eq_true_eq] at both
    obtain ⟨knows, rfl⟩ := both
    rw [bound (List.mem_of_find?_eq_some found), Option.filter_some, if_pos knows]
  | none =>
    cases known : d.field? key with
    | none => rfl
    | some f =>
      have there : f ∈ d.fields.values := List.mem_map.2 ⟨(key, f), KeyMap.mem_entries.2 known, rfl⟩
      have other := List.find?_eq_none.1 found f there
      simp only [keyed key f known, decide_true, and_true, decide_eq_true_eq] at other
      rw [Option.filter_some, if_neg other]

end DefaultFields

namespace FieldNames

/-- The name that an index declares for a key. Of several fields of the key, the last with a name counts. -/
def declared? (types : Types) (i : MixedIndex) (key : SchemaId) : Option String :=
  i.fields.reverse.findSome? fun f =>
    if f.key = key then (declaredName types i.source f).toOption.join else none

/-- The name of the default field of a key, if the index has learned of it. -/
def learned? (d : DefaultFields) (i : MixedIndex) (key : SchemaId) : Option String :=
  ((d.field? key).filter fun f => d.isRegistered ⟨i.store, i.name, f.name⟩).map (·.name)

variable {types : Types} {d e : DefaultFields} {i : MixedIndex} {names names' : FieldNames}
variable {key : SchemaId} {name : String} {source : MappingSource} {m declared : KeyMap String}

theorem addDeclared_ok {f : MixedField} (h : addDeclared types source m f = .ok declared) :
    declared.get? key =
      (if f.key = key then (declaredName types source f).toOption.join else none).or (m.get? key) := by
  rw [addDeclared] at h
  split at h
  · next name named =>
    obtain rfl := Except.ok.inj h
    rw [KeyMap.get?_insert, named]
    by_cases own : f.key = key
    · simp [own, Except.toOption]
    · simp [own, Ne.symm own]
  · next named =>
    obtain rfl := Except.ok.inj h
    simp [named, Except.toOption]
  · cases h

theorem foldlM_addDeclared {fields : List MixedField}
    (h : fields.foldlM (addDeclared types source) m = .ok declared) : declared.get? key =
      (fields.reverse.findSome? fun f =>
        if f.key = key then (declaredName types source f).toOption.join else none).or (m.get? key) := by
  induction fields generalizing m with
  | nil =>
    obtain rfl := pure_ok_iff.1 h
    rfl
  | cons f rest ih =>
    rw [List.foldlM_cons] at h
    obtain ⟨next, first, others⟩ := bind_ok_iff.1 h
    rw [ih others, addDeclared_ok first, List.reverse_cons, List.findSome?_append]
    simp [Option.or_assoc]

theorem get?_foldl_addDefault (fields : List DefaultField) (m : KeyMap String) :
    (fields.foldl addDefault m).get? key =
      (m.get? key).or ((fields.find? (·.key = key)).map (·.name)) := by
  induction fields generalizing m with
  | nil => simp
  | cons f rest ih =>
    have first : (addDefault m f).get? key =
        (m.get? key).or (if f.key = key then some f.name else none) := by
      rw [addDefault]
      by_cases own : f.key = key
      · cases held : m.get? key <;> simp [KeyMap.contains, KeyMap.get?_insert, own, held]
      · split <;> simp [KeyMap.get?_insert, Ne.symm own]
    rw [List.foldl_cons, ih, first, Option.or_assoc]
    by_cases own : f.key = key <;> simp [own]

theorem ofIndex_ok_iff : ofIndex types d i = .ok names ↔
    ∃ declared, i.fields.foldlM (addDeclared types i.source) KeyMap.empty = .ok declared ∧
      names = ⟨i.store, (d.registeredFields i.store i.name).foldl addDefault declared⟩ := by
  rw [ofIndex, bind_ok_iff]
  exact exists_congr fun declared => and_congr_right fun _ => pure_ok_iff.trans eq_comm

/-- The names of an index are those of its declared fields, and of the default fields it has learned of. -/
theorem get?_ofIndex (keyed : d.Keyed) (h : ofIndex types d i = .ok names) (key : SchemaId) :
    names.get? key = (declared? types i key).or (learned? d i key) := by
  obtain ⟨declared, made, rfl⟩ := ofIndex_ok_iff.1 h
  rw [get?, get?_foldl_addDefault, foldlM_addDeclared made, DefaultFields.find?_registeredFields keyed,
    KeyMap.get?_empty, Option.or_none]
  rfl

theorem store_ofIndex (h : ofIndex types d i = .ok names) : names.store = i.store := by
  obtain ⟨_, -, rfl⟩ := ofIndex_ok_iff.1 h
  rfl

/-- Whether an index has names does not depend on what it has learned. -/
theorem ofIndex_ok_of (h : ofIndex types d i = .ok names) (e : DefaultFields) :
    ∃ names', ofIndex types e i = .ok names' := by
  obtain ⟨declared, made, -⟩ := ofIndex_ok_iff.1 h
  exact ⟨_, ofIndex_ok_iff.2 ⟨declared, made, rfl⟩⟩

/-- An index has names if the schema knows the keys that it needs to name its fields. -/
theorem exists_ofIndex (known : i.source = .managed → ∀ f ∈ i.fields, f.mappedName = none →
    ∃ t, types.type? f.key = some t) (d : DefaultFields) : ∃ names, ofIndex types d i = .ok names := by
  have named : ∀ f ∈ i.fields, ∃ name, declaredName types i.source f = .ok name := by
    intro f there
    cases mapped : f.mappedName with
    | some name => exact ⟨some name, by simp only [declaredName, mapped]⟩
    | none =>
      cases source : i.source with
      | external => exact ⟨none, by simp only [declaredName, mapped]⟩
      | managed =>
        obtain ⟨t, found⟩ := known source f there mapped
        exact ⟨some t.name, by simp only [declaredName, mapped, Types.existing, found, Except.map]⟩
  suffices made : ∀ fields : List MixedField,
      (∀ f ∈ fields, ∃ name, declaredName types i.source f = .ok name) → ∀ m : KeyMap String,
        ∃ declared, fields.foldlM (addDeclared types i.source) m = .ok declared by
    obtain ⟨declared, ok⟩ := made i.fields named KeyMap.empty
    exact ⟨_, ofIndex_ok_iff.2 ⟨declared, ok, rfl⟩⟩
  intro fields
  induction fields with
  | nil => exact fun _ m => ⟨m, rfl⟩
  | cons f rest ih =>
    intro named m
    obtain ⟨⟨name, first⟩, others⟩ := List.forall_mem_cons.1 named
    obtain ⟨next, added⟩ : ∃ next, addDeclared types i.source m f = .ok next := by
      rw [addDeclared, first]
      cases name with
      | some name => exact ⟨_, rfl⟩
      | none => exact ⟨_, rfl⟩
    obtain ⟨declared, made⟩ := ih others next
    exact ⟨declared, by rw [List.foldlM_cons]; exact bind_ok_iff.2 ⟨next, added, made⟩⟩

theorem learned?_mono (more : d.Extends e) (h : learned? d i key = some name) :
    learned? e i key = some name := by
  obtain ⟨f, kept, rfl⟩ := Option.map_eq_some_iff.1 h
  obtain ⟨known, knows⟩ := Option.filter_eq_some_iff.1 kept
  have still : e.isRegistered ⟨i.store, i.name, f.name⟩ = true :=
    decide_eq_true (more.registered _ (of_decide_eq_true knows))
  rw [learned?, DefaultFields.field?, more.fields, ← DefaultFields.field?, known, Option.filter_some,
    if_pos still]
  rfl

/-- A key that has a name keeps it, whatever more is registered. -/
theorem get?_mono (keyed : d.Keyed) (more : d.Extends e) (before : ofIndex types d i = .ok names)
    (after : ofIndex types e i = .ok names') (h : names.get? key = some name) :
    names'.get? key = some name := by
  rw [get?_ofIndex keyed before, Option.or_eq_some_iff] at h
  rw [get?_ofIndex (more.keyed keyed) after, Option.or_eq_some_iff]
  exact h.imp id (And.imp_right (learned?_mono more))

/-- A field that an index does not declare has its reserved name once the index has learned of it. -/
theorem get?_of_learned (keyed : d.Keyed) {f : DefaultField} (known : d.field? key = some f)
    (learned : d.isRegistered ⟨i.store, i.name, f.name⟩ = true) (undeclared : i.field? key = none)
    (h : ofIndex types d i = .ok names) : names.get? key = some f.name := by
  have free : declared? types i key = none := by
    rw [declared?, List.findSome?_eq_none_iff]
    intro g there
    have other := List.find?_eq_none.1 undeclared g (List.mem_reverse.1 there)
    rw [if_neg (by simpa using other)]
  rw [get?_ofIndex keyed h, free, Option.none_or, learned?, known, Option.filter_some, if_pos learned]
  rfl

/-- What one index learns makes no difference to the others. -/
theorem ofIndex_register {r : Registration} (other : ¬(r.store = i.store ∧ r.index = i.name)) :
    ofIndex types (d.register r) i = ofIndex types d i := by
  have same : (d.register r).registeredFields i.store i.name = d.registeredFields i.store i.name := by
    refine List.filter_congr fun f _ => ?_
    have apart : (⟨i.store, i.name, f.name⟩ : Registration) ≠ r := fun here => other (by simp [← here])
    simp [DefaultFields.isRegistered, DefaultFields.register, apart]
  rw [ofIndex, ofIndex, same]

end FieldNames

end GraphStore
