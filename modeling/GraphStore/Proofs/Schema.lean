import GraphStore.Proofs.KeyMap
import GraphStore.Schema

/-!
The schemas that additions lead to, and what holds of every type in them: ids fit a header, constrained
types have no sort key, and inlined keys have a type of their own, which later additions never change.
-/
namespace GraphStore

theorem Types.existing_ok {types : Types} {id : SchemaId} {t : RelationType}
    (h : types.existing id = .ok t) : types.type? id = some t := by
  simp only [existing] at h
  split at h
  · next found => rw [found, Except.ok.inj h]
  · contradiction

/-- A key keeps its type as long as the types that were there stay. -/
theorem Types.keyType_mono {types types' : Types}
    (kept : ∀ id t, types.type? id = some t → types'.type? id = some t) {key : SchemaId}
    {type : DataType} (h : types.keyType key = .ok type) : types'.keyType key = .ok type := by
  rw [keyType] at h ⊢
  cases implicit : ImplicitKey.ofId? key with
  | some _ => simpa only [implicit] using h
  | none =>
    simp only [implicit] at h ⊢
    cases found : types.existing key with
    | error fault => simp [found] at h
    | ok t =>
      have same : types'.existing key = .ok t := by
        simp [existing, kept key t (Types.existing_ok found)]
      simpa only [found, same] using h

namespace Schema

/-- A schema is reached from the empty one by additions that are not refused. -/
inductive Reachable : Schema → Prop where
  | empty : Reachable Schema.empty
  | addType {s s' : Schema} {t : RelationType} :
      Reachable s → s.addType t = .ok s' → Reachable s'
  | addLabel {s s' : Schema} {l : VertexLabel} :
      Reachable s → s.addLabel l = .ok s' → Reachable s'

/-- What a schema promises of a type that it holds. -/
structure Sound (s : Schema) (t : RelationType) : Prop where
  inRange : t.id.toNat ≤ SchemaId.greatest
  unreserved : ImplicitKey.isReserved t.id = false
  unsorted : t.multiplicity.isConstrained = true → t.sortKey = []
  inlined : ∀ key ∈ t.inlinedKeys, ∃ type, s.lookup.keyType key = .ok type ∧ type ≠ .generic

variable {s s' : Schema} {t : RelationType} {l : VertexLabel}

/-- All that an accepted type has passed, and what it changes. -/
theorem addType_ok (h : s.addType t = .ok s') :
    ImplicitKey.isReserved t.id = false ∧ t.id.toNat ≤ SchemaId.greatest ∧ s.hasId t.id = false ∧
      s.named? t.name = none ∧ (t.multiplicity.isConstrained = true → t.sortKey = []) ∧
      s.checkInlined t.name t.inlinedKeys = .ok () ∧
      s' = { s with types := s.types.insert t.id t } := by
  simp only [addType] at h
  split at h <;> try contradiction
  next unreserved =>
  split at h <;> try contradiction
  next inRange =>
  split at h <;> try contradiction
  next free =>
  split at h <;> try contradiction
  next unnamed =>
  split at h <;> try contradiction
  next unsorted =>
  split at h <;> try contradiction
  next inlined =>
  refine ⟨by simpa using unreserved, by omega, by simpa using free, by simpa using unnamed, ?_,
    inlined, (Except.ok.inj h).symm⟩
  intro constrained
  simpa [constrained] using unsorted

theorem addLabel_ok (h : s.addLabel l = .ok s') :
    s.hasId l.id = false ∧ s' = { s with labels := s.labels.insert l.id l } := by
  simp only [addLabel] at h
  split at h <;> try contradiction
  next free => exact ⟨by simpa using free, (Except.ok.inj h).symm⟩

theorem checkInlined_ok {type : String} {keys : List SchemaId} (h : s.checkInlined type keys = .ok ()) :
    ∀ key ∈ keys, ∃ type, s.lookup.keyType key = .ok type ∧ type ≠ .generic := by
  induction keys with
  | nil => simp
  | cons key rest ih =>
    simp only [checkInlined] at h
    split at h <;> try contradiction
    next declared typed known =>
    intro k member
    rcases List.mem_cons.1 member with rfl | later
    · exact ⟨_, known, typed⟩
    · exact ih h k later

theorem Sound.mono {types : KeyMap RelationType} {labels : KeyMap VertexLabel} (h : s.Sound t)
    (kept : ∀ id t, s.types.get? id = some t → types.get? id = some t) :
    Sound ⟨types, labels⟩ t where
  inRange := h.inRange
  unreserved := h.unreserved
  unsorted := h.unsorted
  inlined key member := by
    obtain ⟨type, known, typed⟩ := h.inlined key member
    exact ⟨type, Types.keyType_mono kept known, typed⟩

theorem Reachable.sound (h : s.Reachable) {id : SchemaId} (found : s.types.get? id = some t) :
    t.id = id ∧ s.Sound t := by
  induction h generalizing id t with
  | empty => simp [Schema.empty] at found
  | @addType s s' added _ accepted ih =>
    obtain ⟨unreserved, inRange, free, -, unsorted, inlined, rfl⟩ := addType_ok accepted
    have kept : ∀ id t, s.types.get? id = some t → (s.types.insert added.id added).get? id = some t := by
      intro id t known
      rw [KeyMap.get?_insert, if_neg, known]
      rintro rfl
      simp [hasId, KeyMap.contains, known] at free
    rw [KeyMap.get?_insert] at found
    split at found
    · next same =>
      obtain rfl := Option.some.inj found
      refine ⟨same.symm, inRange, unreserved, unsorted, fun key member => ?_⟩
      obtain ⟨type, known, typed⟩ := checkInlined_ok inlined key member
      exact ⟨type, Types.keyType_mono kept known, typed⟩
    · exact ⟨(ih found).1, (ih found).2.mono kept⟩
  | addLabel _ accepted ih =>
    obtain ⟨-, rfl⟩ := addLabel_ok accepted
    exact ⟨(ih found).1, (ih found).2.mono fun _ _ known => known⟩

/-- Implicit keys are not among the types of a schema. -/
theorem Reachable.unreserved (h : s.Reachable) {id : SchemaId} (found : s.lookup.existing id = .ok t) :
    ImplicitKey.isReserved id = false := by
  obtain ⟨rfl, promised⟩ := h.sound (Types.existing_ok found)
  exact promised.unreserved

/-- A year, as a key of properties. -/
def since : RelationType := .propertyKey (.ofNat 10) "since" .int

/-- Edges that sort from the latest year to the earliest. -/
def knows : RelationType :=
  { RelationType.edgeLabel (.ofNat 11) "knows" with sortKey := [since.id], sortOrder := .descending }

/-- People who know each other. -/
def acquaintance : Schema := ⟨.ofList [(since.id, since), (knows.id, knows)], .empty⟩

theorem acquaintance_reachable : acquaintance.Reachable := by
  have first : Schema.empty.addType since = .ok ⟨.ofList [(since.id, since)], .empty⟩ := rfl
  have second : Schema.addType ⟨.ofList [(since.id, since)], .empty⟩ knows = .ok acquaintance := rfl
  exact (Reachable.empty.addType first).addType second

/-- When a person was born. -/
def birth : RelationType := .propertyKey (.ofNat 12) "birth" .date

def births : Schema := ⟨.ofList [(birth.id, birth)], .empty⟩

theorem births_reachable : births.Reachable := by
  have accepted : Schema.empty.addType birth = .ok births := rfl
  exact Reachable.empty.addType accepted

end Schema

end GraphStore
