import GraphStore.Identifier

/-!
A finite map from schema ids, kept as a list that ascends by id. The ascent is part of the type, so
two maps with the same bindings are equal, and walking a map meets its keys in order.
-/
namespace GraphStore

structure KeyMap (α : Type) where
  entries : List (SchemaId × α)
  ascending : entries.Pairwise (fun a b => a.1 < b.1)
  deriving DecidableEq, Repr

namespace KeyMap

variable {α β : Type}

def empty : KeyMap α := ⟨[], List.Pairwise.nil⟩

instance : Inhabited (KeyMap α) := ⟨empty⟩

/-- Put a binding at its place, in the stead of an older one of the same key. -/
def insertEntry (key : SchemaId) (value : α) : List (SchemaId × α) → List (SchemaId × α)
  | [] => [(key, value)]
  | entry :: rest =>
    if key < entry.1 then (key, value) :: entry :: rest
    else if key = entry.1 then (key, value) :: rest
    else entry :: insertEntry key value rest

theorem mem_insertEntry {key : SchemaId} {value : α} {l : List (SchemaId × α)}
    {x : SchemaId × α} (h : x ∈ insertEntry key value l) : x = (key, value) ∨ x ∈ l := by
  induction l with
  | nil => simpa [insertEntry] using h
  | cons entry rest ih =>
    simp only [insertEntry] at h
    split at h
    · simpa using h
    · split at h
      · rcases List.mem_cons.1 h with h | h
        · exact .inl h
        · exact .inr (List.mem_cons_of_mem _ h)
      · rcases List.mem_cons.1 h with h | h
        · exact .inr (h ▸ List.mem_cons_self)
        · exact (ih h).imp id (List.mem_cons_of_mem _)

theorem insertEntry_ascending (key : SchemaId) (value : α) {l : List (SchemaId × α)}
    (h : l.Pairwise (fun a b => a.1 < b.1)) :
    (insertEntry key value l).Pairwise (fun a b => a.1 < b.1) := by
  induction l with
  | nil => simp [insertEntry]
  | cons entry rest ih =>
    have tail := List.pairwise_cons.1 h
    simp only [insertEntry]
    split
    · rename_i below
      refine List.pairwise_cons.2 ⟨fun x hx => ?_, h⟩
      rcases List.mem_cons.1 hx with hx | hx
      · exact hx ▸ below
      · have := tail.1 x hx
        simp only [SchemaId.lt_iff] at *
        omega
    · split
      · rename_i same
        refine List.pairwise_cons.2 ⟨fun x hx => ?_, tail.2⟩
        simpa [same] using tail.1 x hx
      · rename_i above different
        refine List.pairwise_cons.2 ⟨fun x hx => ?_, ih tail.2⟩
        rcases mem_insertEntry hx with hx | hx
        · have apart : key.toNat ≠ entry.1.toNat := fun e => different (SchemaId.toNat_inj.1 e)
          simp only [hx, SchemaId.lt_iff] at *
          omega
        · exact tail.1 x hx

def insert (key : SchemaId) (value : α) (m : KeyMap α) : KeyMap α :=
  ⟨insertEntry key value m.entries, insertEntry_ascending key value m.ascending⟩

def find (key : SchemaId) : List (SchemaId × α) → Option α
  | [] => none
  | entry :: rest => if entry.1 = key then some entry.2 else find key rest

def get? (m : KeyMap α) (key : SchemaId) : Option α := find key m.entries

def contains (m : KeyMap α) (key : SchemaId) : Bool := (m.get? key).isSome

/-- Later bindings win over earlier ones. -/
def ofList (l : List (SchemaId × α)) : KeyMap α := l.foldl (fun m e => m.insert e.1 e.2) empty

def filter (keep : SchemaId → α → Bool) (m : KeyMap α) : KeyMap α :=
  ⟨m.entries.filter (fun e => keep e.1 e.2), m.ascending.sublist List.filter_sublist⟩

def erase (key : SchemaId) (m : KeyMap α) : KeyMap α := m.filter (fun k _ => k ≠ key)

def map (f : α → β) (m : KeyMap α) : KeyMap β :=
  ⟨m.entries.map (fun e => (e.1, f e.2)), by
    simpa [List.pairwise_map] using m.ascending⟩

def keys (m : KeyMap α) : List SchemaId := m.entries.map (·.1)

def values (m : KeyMap α) : List α := m.entries.map (·.2)

def size (m : KeyMap α) : Nat := m.entries.length

def isEmpty (m : KeyMap α) : Bool := m.entries.isEmpty

@[simp] theorem get?_empty (key : SchemaId) : (empty : KeyMap α).get? key = none := rfl

theorem find_insertEntry (key k : SchemaId) (value : α) (l : List (SchemaId × α))
    (h : l.Pairwise (fun a b => a.1 < b.1)) :
    find k (insertEntry key value l) = if k = key then some value else find k l := by
  induction l with
  | nil => simp [insertEntry, find, eq_comm]
  | cons entry rest ih =>
    have tail := List.pairwise_cons.1 h
    simp only [insertEntry]
    split
    · simp [find, eq_comm]
    · split
      · rename_i same
        subst same
        by_cases hk : k = entry.1
        · simp [find, hk]
        · simp [find, hk, eq_comm (a := entry.1)]
      · rename_i different
        by_cases hk : k = key
        · subst hk
          simp [find, ih tail.2, Ne.symm different]
        · simp [find, ih tail.2, hk]

theorem get?_insert (m : KeyMap α) (key k : SchemaId) (value : α) :
    (m.insert key value).get? k = if k = key then some value else m.get? k :=
  find_insertEntry key k value m.entries m.ascending

end KeyMap

end GraphStore
