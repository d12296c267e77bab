import GraphStore.KeyMap
import Mathlib.Data.List.Sort

/-! Maps by what they bind: a map is the same as another if they bind the same, in whatever order the
bindings came. -/
namespace GraphStore

namespace KeyMap

variable {α β : Type}

theorem find_eq_some_of_mem {key : SchemaId} {value : α} {l : List (SchemaId × α)}
    (ascending : l.Pairwise (fun a b => a.1 < b.1)) (h : (key, value) ∈ l) :
    find key l = some value := by
  induction l with
  | nil => simp at h
  | cons entry rest ih =>
    obtain ⟨first, tail⟩ := List.pairwise_cons.1 ascending
    rcases List.mem_cons.1 h with same | later
    · simp [find, ← same]
    · have apart : entry.1 ≠ key := fun e => by
        have below := first _ later
        rw [e, SchemaId.lt_iff] at below
        exact Nat.lt_irrefl _ below
      rw [find, if_neg apart, ih tail later]

theorem mem_of_find {key : SchemaId} {value : α} {l : List (SchemaId × α)}
    (h : find key l = some value) : (key, value) ∈ l := by
  induction l with
  | nil => simp [find] at h
  | cons entry rest ih =>
    rw [find] at h
    split at h
    · next same => exact List.mem_cons.2 (.inl (Prod.ext same.symm (Option.some.inj h).symm))
    · exact List.mem_cons_of_mem _ (ih h)

theorem mem_entries {m : KeyMap α} {key : SchemaId} {value : α} :
    (key, value) ∈ m.entries ↔ m.get? key = some value :=
  ⟨find_eq_some_of_mem m.ascending, mem_of_find⟩

theorem head?_keys_eq_none_iff {m : KeyMap α} : m.keys.head? = none ↔ ∀ key, m.get? key = none := by
  rw [keys, List.head?_eq_none_iff, List.map_eq_nil_iff]
  constructor
  · intro h key
    rw [get?, h]
    rfl
  · intro h
    rw [List.eq_nil_iff_forall_not_mem]
    rintro ⟨key, value⟩ there
    cases (h key).symm.trans (mem_entries.1 there)

theorem ext_get? {m n : KeyMap α} (h : ∀ key, m.get? key = n.get? key) : m = n := by
  have same : ∀ e : SchemaId × α, e ∈ m.entries ↔ e ∈ n.entries := by
    rintro ⟨key, value⟩
    rw [mem_entries, mem_entries, h]
  have irrefl : Std.Irrefl (fun a b : SchemaId × α => a.1 < b.1) :=
    ⟨fun _ below => Nat.lt_irrefl _ (SchemaId.lt_iff.1 below)⟩
  have antisymm : Std.Antisymm (fun a b : SchemaId × α => a.1 < b.1) :=
    ⟨fun _ _ below above =>
      absurd (SchemaId.lt_iff.1 above) (Nat.lt_asymm (SchemaId.lt_iff.1 below))⟩
  have entries := m.ascending.eq_of_mem_iff n.ascending same
  cases m
  cases n
  simp_all

theorem get?_filter (m : KeyMap α) (keep : SchemaId → α → Bool) (key : SchemaId) :
    (m.filter keep).get? key = (m.get? key).filter (keep key) := by
  apply Option.ext
  intro value
  rw [← mem_entries, Option.filter_eq_some_iff, ← mem_entries]
  simp [filter]

theorem get?_erase (m : KeyMap α) (key k : SchemaId) :
    (m.erase key).get? k = if k = key then none else m.get? k := by
  rw [erase, get?_filter]
  by_cases same : k = key <;> cases m.get? k <;> simp [same]

/-- Every value with something made of it, which may depend on the key. -/
def mapKeyed (f : SchemaId → α → β) (m : KeyMap α) : KeyMap β :=
  ⟨m.entries.map (fun e => (e.1, f e.1 e.2)), by simpa [List.pairwise_map] using m.ascending⟩

theorem get?_mapKeyed (f : SchemaId → α → β) (m : KeyMap α) (key : SchemaId) :
    (m.mapKeyed f).get? key = (m.get? key).map (f key) := by
  apply Option.ext
  intro value
  rw [← mem_entries, Option.map_eq_some_iff]
  simp [mapKeyed, mem_entries]

theorem get?_foldl_insert (l : List (SchemaId × α)) (m : KeyMap α) (key : SchemaId) :
    (l.foldl (fun m e => m.insert e.1 e.2) m).get? key =
      (l.reverse.find? (·.1 = key)).elim (m.get? key) (fun e => some e.2) := by
  induction l generalizing m with
  | nil => rfl
  | cons e l ih =>
    rw [List.foldl_cons, ih, List.reverse_cons, List.find?_append]
    cases found : l.reverse.find? (·.1 = key) with
    | some e' => simp
    | none =>
      by_cases same : e.1 = key
      · simp [same, get?_insert]
      · simp [same, get?_insert, Ne.symm same]

/-- A list of bindings that are all those of a map, perhaps some of them more than once. -/
theorem ofList_eq {l : List (SchemaId × α)} {m : KeyMap α} (sound : ∀ e ∈ l, m.get? e.1 = some e.2)
    (complete : ∀ key value, m.get? key = some value → (key, value) ∈ l) : ofList l = m := by
  refine ext_get? fun key => ?_
  rw [ofList, get?_foldl_insert]
  cases found : l.reverse.find? (·.1 = key) with
  | some e =>
    have here := List.mem_reverse.1 (List.mem_of_find?_eq_some found)
    have named : e.1 = key := by simpa using List.find?_some found
    rw [Option.elim_some, ← sound e here, named]
  | none =>
    rw [Option.elim_none, get?_empty, eq_comm]
    rw [Option.eq_none_iff_forall_ne_some]
    intro value bound
    have absent := List.find?_eq_none.1 found (key, value) (by simpa using complete key value bound)
    simp at absent

end KeyMap

end GraphStore
