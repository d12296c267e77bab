import GraphStore.Proofs.Schema

/-!
A schema as calls make it grow. Any call may be refused, and a refused one changes nothing. So an id or a name
stands for one thing at most, and each type keeps what was checked when it came.
-/
namespace GraphStore

/-- A call that may change a schema. -/
inductive SchemaCall where
  | type (t : RelationType)
  | label (l : VertexLabel)
  deriving Repr

def SchemaCall.run (s : Schema) : SchemaCall → Except Fault Schema
  | type t => s.addType t
  | label l => s.addLabel l

namespace Schema

/-- What a call leaves: if it is refused, the schema that there was. -/
def step (s : Schema) (call : SchemaCall) : Schema :=
  match call.run s with
  | .ok s' => s'
  | .error _ => s

/-- The schema after some calls, whatever came of each. -/
def after (calls : List SchemaCall) : Schema := calls.foldl step .empty

/-- Ids and names stand for one thing each, and the schema keeps its promises of every type. -/
structure WellFormed (s : Schema) : Prop where
  /-- No id is that of a type and of a label. -/
  apart : ∀ id, s.types.contains id = true → s.labels.contains id = false
  named : ∀ id id' t t', s.types.get? id = some t → s.types.get? id' = some t' → t.name = t'.name → id = id'
  types : ∀ id t, s.types.get? id = some t → t.id = id ∧ s.Sound t

variable {s s' : Schema} {t : RelationType} {l : VertexLabel} {id : SchemaId}

theorem name_ne_of_named? {name : String} (free : s.named? name = none) (found : s.types.get? id = some t) :
    t.name ≠ name := by
  have there : t ∈ s.types.values := List.mem_map.2 ⟨(id, t), KeyMap.mem_entries.2 found, rfl⟩
  simpa using List.find?_eq_none.1 free t there

theorem Reachable.apart (h : s.Reachable) (id : SchemaId) :
    s.types.contains id = true → s.labels.contains id = false := by
  induction h with
  | empty => exact nofun
  | @addType s s' t _ accepted ih =>
    obtain ⟨-, -, free, -, -, -, rfl⟩ := addType_ok accepted
    rw [hasId, Bool.or_eq_false_iff] at free
    intro typed
    rw [KeyMap.contains, KeyMap.get?_insert] at typed
    split at typed
    · next same => exact same ▸ free.2
    · exact ih typed
  | @addLabel s s' l _ accepted ih =>
    obtain ⟨free, rfl⟩ := addLabel_ok accepted
    rw [hasId, Bool.or_eq_false_iff] at free
    intro typed
    rw [KeyMap.contains, KeyMap.get?_insert]
    split
    · next same => simp [← same, typed] at free
    · exact ih typed

theorem Reachable.named (h : s.Reachable) {id id' : SchemaId} {t t' : RelationType}
    (found : s.types.get? id = some t) (found' : s.types.get? id' = some t') (same : t.name = t'.name) :
    id = id' := by
  induction h generalizing id id' t t' with
  | empty => cases found
  | @addType s s' added _ accepted ih =>
    obtain ⟨-, -, -, free, -, -, rfl⟩ := addType_ok accepted
    rw [KeyMap.get?_insert] at found found'
    split at found <;> split at found'
    · next here here' => exact here.trans here'.symm
    · obtain rfl := Option.some.inj found
      exact absurd same.symm (name_ne_of_named? free found')
    · obtain rfl := Option.some.inj found'
      exact absurd same (name_ne_of_named? free found)
    · exact ih found found' same
  | addLabel _ accepted ih =>
    obtain ⟨-, rfl⟩ := addLabel_ok accepted
    exact ih found found' same

theorem Reachable.wellFormed (h : s.Reachable) : s.WellFormed where
  apart := h.apart
  named _ _ _ _ found found' same := h.named found found' same
  types _ _ found := h.sound found

theorem Reachable.step (h : s.Reachable) (call : SchemaCall) : (s.step call).Reachable := by
  rw [Schema.step]
  cases run : call.run s with
  | error fault => exact h
  | ok s' =>
    cases call with
    | type t => exact h.addType run
    | label l => exact h.addLabel run

/-- Every run of calls is one of those that were accepted. -/
theorem reachable_after (calls : List SchemaCall) : (after calls).Reachable := by
  suffices run : ∀ s : Schema, s.Reachable → (calls.foldl step s).Reachable from run .empty .empty
  induction calls with
  | nil => exact fun _ h => h
  | cons call rest ih => exact fun _ h => ih _ (h.step call)

end Schema

end GraphStore
