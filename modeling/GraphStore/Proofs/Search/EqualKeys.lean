import GraphStore.Proofs.Search.KeyLookup

/-!
Keys of equal values. A query takes the two zeros for one value, but a key holds the bits of a number, in which
the sign stands. So equal values have one key as long as their zeros have one sign, and a lookup by equality
misses the elements that hold the zero of the other sign.
-/
namespace GraphStore

/-- Asks each field for one value. -/
def Condition.fixing (fields : List SchemaId) (values : List Value) : Condition :=
  .and (List.zipWith .equals fields values)

namespace KeyLookup

variable {codec : KeyCodec} {types : Types} {i : CompositeIndex} {fields : List SchemaId}
  {values others : List Value} {key other : Bytes}

/-- Fresh keys are left just the values that they are asked for. -/
theorem collectAll_fixing {c : Constraints} (distinct : fields.Nodup)
    (aligned : values.length = fields.length) (fresh : ∀ field ∈ fields, c.get? field = none) :
    ∃ d : Constraints, c.collectAll (List.zipWith .equals fields values) = .ok d ∧
      fields.map d.get? = values.map (fun v => some [v]) ∧
      ∀ field, field ∉ fields → d.get? field = c.get? field := by
  induction fields generalizing c values with
  | nil =>
    obtain rfl := List.length_eq_zero_iff.1 aligned
    exact ⟨c, rfl, rfl, fun _ _ => rfl⟩
  | cons field rest ih =>
    cases values with
    | nil => cases aligned
    | cons v values =>
      obtain ⟨new, distinct⟩ := List.nodup_cons.1 distinct
      obtain ⟨here, later⟩ := List.forall_mem_cons.1 fresh
      have apart (k : SchemaId) (member : k ∈ rest) : (c.constrain field [v]).get? k = none := by
        have other : k ≠ field := fun same => new (same ▸ member)
        rw [Constraints.get?_constrain, if_neg other, later k member]
      obtain ⟨d, collected, left, beside⟩ := ih distinct (Nat.succ.inj aligned) apart
      refine ⟨d, collected, ?_, fun k outside => ?_⟩
      · rw [List.map_cons, List.map_cons, left, beside field new, Constraints.get?_constrain, if_pos rfl,
          here]
      · obtain ⟨other, outside⟩ := not_or.1 (mt List.mem_cons.2 outside)
        rw [beside k outside, Constraints.get?_constrain, if_neg other]

/-- One value for each field is the one choice. -/
theorem choices_singletons : choices (values.map fun v => [v]) = [values] := by
  induction values with
  | nil => rfl
  | cons v rest ih => simp [choices, ih]

theorem fieldValues_fixing (distinct : i.fields.Nodup) (maintained : i.status.isMaintained = true)
    (aligned : values.length = i.fields.length) :
    fieldValues i (.fixing i.fields values) = .ok (values.map fun v => [v]) := by
  obtain ⟨d, collected, left, beside⟩ :=
    collectAll_fixing (c := .empty) distinct aligned fun _ _ => KeyMap.get?_empty _
  have bound : ∀ field ∈ i.fields, (d.get? field).isSome := by
    intro field member
    have there : d.get? field ∈ values.map (fun v => some [v]) := left ▸ List.mem_map_of_mem member
    obtain ⟨v, -, known⟩ := List.mem_map.1 there
    simp [← known]
  have taken : ∃ found, d.ofFields i.name i.fields = .ok found := Constraints.ofFields_taken distinct bound
  obtain ⟨⟨lists, rest⟩, split⟩ := taken
  obtain ⟨rfl, -, rest_eq⟩ := Constraints.ofFields_ok distinct split
  have none_left : rest.keys.head? = none := by
    refine KeyMap.head?_keys_eq_none_iff.2 fun field => ?_
    rw [rest_eq]
    split
    · rfl
    · next outside => rw [beside field outside, KeyMap.get?_empty]
  have allowed : i.fields.map d.allowed = values.map fun v => [v] := by
    have each := congrArg (List.map (Option.getD · [])) left
    rw [List.map_map, List.map_map] at each
    exact each
  rw [fieldValues, maintained]
  refine bind_ok_iff.2 ⟨d, collected, bind_ok_iff.2 ⟨_, split, ?_⟩⟩
  simp only [none_left, allowed]
  rfl

/-- A lookup of one value for each field fetches the one key of these values. -/
theorem ofCondition_fixing (distinct : i.fields.Nodup) (maintained : i.status.isMaintained = true)
    (built : codec.build types i values = .ok key) :
    ofCondition codec types i (.fixing i.fields values) = .ok ⟨i.id, [key]⟩ := by
  obtain ⟨aligned, -⟩ := KeyCodec.build_ok built
  have fetched : build codec types i [] [values] = .ok [key] := by
    rw [build, built]
    rfl
  rw [ofCondition, fieldValues_fixing distinct maintained aligned]
  simp [Except.mapError, bind, Except.bind, choices_singletons, fetched, liftFault, pure, Except.pure]

theorem eq_iff_sameZeros (equal : List.Forall₂ (fun v w => v.equals w = true) values others) :
    values = others ↔ List.Forall₂ Value.SameZeros values others := by
  induction equal with
  | nil => simp
  | cons head _ ih => simp [Value.eq_iff_sameZeros head, ih]

/-- No value that is equal to another is a date beside it, so the compact form keeps them apart. -/
theorem eq_of_kept_eq (equal : List.Forall₂ (fun v w => v.equals w = true) values others)
    (same : values.map (·.kept .compact) = others.map (·.kept .compact)) : values = others := by
  induction equal with
  | nil => rfl
  | cons head _ ih =>
    obtain ⟨first, later⟩ := List.cons.inj same
    rw [ih later]
    obtain rfl | ⟨s, t, rfl, rfl, -⟩ := Attribute.eq_or_dates_of_kept_eq first
    · rfl
    · rw [of_decide_eq_true head]

/-- Of equal values, field by field, the keys are the same just if zeros beside each other have one sign. Just
then does a lookup of the one list fetch what is stored under the other. -/
theorem build_eq_iff_sameZeros (wide : codec.IsWide) (left : codec.build types i values = .ok key)
    (right : codec.build types i others = .ok other)
    (equal : List.Forall₂ (fun v w => v.equals w = true) values others) :
    (key = other ↔ List.Forall₂ Value.SameZeros values others) ∧
      (i.fields.Nodup → i.status.isMaintained = true →
        ∃ q, ofCondition codec types i (.fixing i.fields values) = .ok q ∧
          (other ∈ q.keys ↔ List.Forall₂ Value.SameZeros values others)) := by
  have keys : key = other ↔ List.Forall₂ Value.SameZeros values others := by
    rw [← eq_iff_sameZeros equal]
    constructor
    · rintro rfl
      exact eq_of_kept_eq equal (KeyCodec.kept_of_build_eq wide left right)
    · rintro rfl
      exact Except.ok.inj (left.symm.trans right)
  refine ⟨keys, fun distinct maintained => ⟨_, ofCondition_fixing distinct maintained left, ?_⟩⟩
  rw [← keys, List.mem_singleton, eq_comm]

def degrees : RelationType := .propertyKey (.ofNat 15) "degrees" .float

def weather : Schema := ⟨.ofList [(degrees.id, degrees)], .empty⟩

def byDegrees : CompositeIndex := ⟨.ofNat 25, "by degrees", .vertex, [degrees.id], .single, .enabled, none⟩

/-- What a float at zero is, from above and from below. -/
def thaw : Binary64 := ⟨0⟩

def frost : Binary64 := ⟨0x8000000000000000⟩

theorem build_eq_iff_sameZeros_frost : ∃ key q,
    (KeyCodec.sha256 none).build weather.lookup byDegrees [.float frost] = .ok key ∧
    ofCondition (.sha256 none) weather.lookup byDegrees (.fixing byDegrees.fields [.float frost]) = .ok q ∧
    key ∈ q.keys := by
  obtain ⟨key, built⟩ : ∃ key,
      (KeyCodec.sha256 none).build weather.lookup byDegrees [.float frost] = .ok key := ⟨_, rfl⟩
  have equal : List.Forall₂ (fun v w : Value => v.equals w = true) [.float frost] [.float frost] :=
    .cons (by decide) .nil
  obtain ⟨-, lookup⟩ := build_eq_iff_sameZeros (KeyCodec.sha256_isWide none) built built equal
  obtain ⟨q, taken, found⟩ := lookup (by decide) rfl
  exact ⟨key, q, built, taken, found.2 (.cons (fun _ _ => rfl) .nil)⟩

/-- The zeros are equal and have two keys. Asked for either of them, a lookup takes them for one alternative
and fetches only the key of the first. -/
theorem ofCondition_misses_frost : ∃ key other,
    (Value.float thaw).equals (.float frost) = true ∧
    (KeyCodec.sha256 none).build weather.lookup byDegrees [.float thaw] = .ok key ∧
    (KeyCodec.sha256 none).build weather.lookup byDegrees [.float frost] = .ok other ∧
    key ≠ other ∧
    ofCondition (.sha256 none) weather.lookup byDegrees
      (.or [.equals degrees.id (.float thaw), .equals degrees.id (.float frost)]) =
        .ok ⟨byDegrees.id, [key]⟩ :=
  ⟨_, _, by decide, rfl, rfl, by decide, rfl⟩

end KeyLookup

end GraphStore
