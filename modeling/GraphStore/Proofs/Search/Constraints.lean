import GraphStore.Proofs.Attempt
import GraphStore.Proofs.KeyMap
import GraphStore.Proofs.Value.Equality
import GraphStore.Search.KeyLookup

/-!
What a composite index makes of a condition. A condition is taken just if it is built by conjunction from
equalities and from alternatives for one key. The values that it then leaves each key are those under which
it holds.
-/
namespace GraphStore

namespace Condition

mutual
/-- The leaves of a condition: keys, with the values beside them. -/
def leaves : Condition → List (SchemaId × Value)
  | and parts => leavesOf parts
  | or parts => leavesOf parts
  | not part => leaves part
  | leaf key _ value => [(key, value)]

def leavesOf : List Condition → List (SchemaId × Value)
  | [] => []
  | part :: rest => leaves part ++ leavesOf rest
end

/-- The keys that a condition says something of. -/
def keys (c : Condition) : List SchemaId := c.leaves.map (·.1)

mutual
/-- Whether a condition holds if each key has one value. Only equality is judged here: what asks for anything
else counts as missed. -/
def holds (choice : SchemaId → Value) : Condition → Bool
  | and parts => allHold choice parts
  | or parts => someHolds choice parts
  | not part => !holds choice part
  | leaf key (.compare .equal) value => (choice key).equals value
  | leaf _ _ _ => false

def allHold (choice : SchemaId → Value) : List Condition → Bool
  | [] => true
  | part :: rest => holds choice part && allHold choice rest

def someHolds (choice : SchemaId → Value) : List Condition → Bool
  | [] => false
  | part :: rest => holds choice part || someHolds choice rest
end

/-- The conditions that say which values keys may have. -/
inductive IsLookup : Condition → Prop where
  | equality (key : SchemaId) (value : Value) : IsLookup (equals key value)
  | alternatives (key : SchemaId) (values : List Value) (some : values ≠ []) :
      IsLookup (or (values.map (equals key)))
  | conjunction (parts : List Condition) (each : ∀ part ∈ parts, IsLookup part) : IsLookup (and parts)

theorem mem_leavesOf {parts : List Condition} {e : SchemaId × Value} :
    e ∈ leavesOf parts ↔ ∃ part ∈ parts, e ∈ part.leaves := by
  induction parts with
  | nil => simp [leavesOf]
  | cons part rest ih => simp [leavesOf, ih]

theorem mem_leaves_alternatives {key : SchemaId} {values : List Value} {e : SchemaId × Value} :
    e ∈ (or (values.map (equals key))).leaves ↔ e.1 = key ∧ e.2 ∈ values := by
  obtain ⟨k, v⟩ := e
  simp only [leaves, mem_leavesOf, List.mem_map, equals, exists_exists_and_eq_and, List.mem_singleton,
    Prod.mk.injEq]
  constructor
  · rintro ⟨w, there, rfl, rfl⟩
    exact ⟨rfl, there⟩
  · rintro ⟨rfl, there⟩
    exact ⟨v, there, rfl, rfl⟩

theorem IsLookup.and_cons {part : Condition} {rest : List Condition} (first : part.IsLookup)
    (others : (and rest).IsLookup) : (and (part :: rest)).IsLookup := by
  cases others with
  | conjunction _ each => exact .conjunction _ (List.forall_mem_cons.2 ⟨first, each⟩)

end Condition

namespace Value

variable {v w : Value} {values others : List Value}

theorem isAmong_iff : v.isAmong values = true ↔ ∃ w ∈ values, w.equals v = true := List.any_eq_true

@[simp] theorem isAmong_singleton : v.isAmong [w] = w.equals v := by simp [isAmong]

theorem isAmong_append :
    v.isAmong (values ++ others) = true ↔ v.isAmong values = true ∨ v.isAmong others = true := by
  simp [isAmong]

/-- What is equal to a value of a list is as much in the list. -/
theorem isAmong_of_equals (there : v.isAmong values = true) (same : v.equals w = true) :
    w.isAmong values = true := by
  obtain ⟨u, member, equal⟩ := isAmong_iff.1 there
  exact isAmong_iff.2 ⟨u, member, equals_trans equal same⟩

theorem isAmong_filter : v.isAmong (values.filter fun w => w.isAmong others) = true ↔
    v.isAmong values = true ∧ v.isAmong others = true := by
  rw [isAmong_iff (v := v)]
  simp only [List.mem_filter]
  constructor
  · rintro ⟨w, ⟨there, both⟩, same⟩
    exact ⟨isAmong_iff.2 ⟨w, there, same⟩, isAmong_of_equals both same⟩
  · rintro ⟨one, other⟩
    obtain ⟨w, there, same⟩ := isAmong_iff.1 one
    exact ⟨w, ⟨there, isAmong_of_equals other (equals_comm v w ▸ same)⟩, same⟩

end Value

theorem Condition.someHolds_alternatives {choice : SchemaId → Value} {key : SchemaId}
    {values : List Value} : someHolds choice (values.map (equals key)) = (choice key).isAmong values := by
  induction values with
  | nil => rfl
  | cons v rest ih =>
    rw [List.map_cons, someHolds, ih, equals, holds, Value.equals_comm]
    rfl

namespace Constraints

variable {c c' c'' : Constraints} {key k : SchemaId} {values all : List Value} {v : Value}
  {part condition : Condition} {parts : List Condition} {choice : SchemaId → Value}

/-- The values of a choice are among those left. -/
def Allows (c : Constraints) (choice : SchemaId → Value) : Prop :=
  ∀ key values, c.get? key = some values → (choice key).isAmong values = true

theorem get?_constrain : (c.constrain key values).get? k =
    if k = key then some (match c.get? key with
      | some held => held.filter fun v => v.isAmong values
      | none => values)
    else c.get? k := by
  rw [constrain]
  cases c.get? key <;> exact KeyMap.get?_insert ..

theorem isSome_constrain :
    ((c.constrain key values).get? k).isSome ↔ (c.get? k).isSome ∨ k = key := by
  rw [get?_constrain]
  by_cases same : k = key <;> simp [same]

theorem mem_constrain (h : (c.constrain key values).get? k = some all) (there : v ∈ all) :
    (∃ held, c.get? k = some held ∧ v ∈ held) ∨ k = key ∧ v ∈ values := by
  rw [get?_constrain] at h
  by_cases same : k = key
  · subst same
    rw [if_pos rfl] at h
    obtain rfl := Option.some.inj h
    cases known : c.get? k with
    | none =>
      rw [known] at there
      exact .inr ⟨rfl, there⟩
    | some held =>
      rw [known] at there
      exact .inl ⟨held, rfl, List.mem_of_mem_filter there⟩
  · rw [if_neg same] at h
    exact .inl ⟨all, h, there⟩

theorem allows_constrain : (c.constrain key values).Allows choice ↔
    c.Allows choice ∧ (choice key).isAmong values = true := by
  have here : (∀ all, (c.constrain key values).get? key = some all → (choice key).isAmong all = true) ↔
      (∀ held, c.get? key = some held → (choice key).isAmong held = true) ∧
        (choice key).isAmong values = true := by
    simp only [get?_constrain, if_true, Option.some.injEq, forall_eq']
    cases c.get? key with
    | none => simp
    | some held => simp [Value.isAmong_filter]
  constructor
  · intro allows
    obtain ⟨before, among⟩ := here.1 (allows key)
    refine ⟨fun k held known => ?_, among⟩
    by_cases same : k = key
    · subst same
      exact before held known
    · exact allows k held (by rw [get?_constrain, if_neg same, known])
  · rintro ⟨allows, among⟩ k held known
    by_cases same : k = key
    · subst same
      exact here.2 ⟨allows k, among⟩ held known
    · rw [get?_constrain, if_neg same] at known
      exact allows k held known

theorem equality_ok : equality part = .ok (key, v) ↔ part = .equals key v := by
  constructor
  · intro h
    unfold equality at h
    split at h
    · obtain ⟨rfl, rfl⟩ := Prod.mk.inj (Except.ok.inj h)
      rfl
    · cases h
  · rintro rfl
    rfl

theorem moreAlternatives_ok (h : moreAlternatives key values parts = .ok all) :
    ∃ more : List Value, parts = more.map (.equals key) ∧ (∀ v ∈ all, v ∈ values ∨ v ∈ more) ∧
      ∀ x : Value, x.isAmong all = true ↔ x.isAmong values = true ∨ x.isAmong more = true := by
  induction parts generalizing values with
  | nil =>
    obtain rfl := Except.ok.inj h
    exact ⟨[], rfl, fun v there => .inl there, by simp [Value.isAmong]⟩
  | cons part rest ih =>
    obtain ⟨⟨k, v⟩, first, others⟩ := bind_ok_iff.1 h
    obtain rfl := equality_ok.1 first
    simp only at others
    split at others
    · cases others
    next same =>
    obtain rfl := not_not.1 same
    obtain ⟨more, rfl, source, among⟩ := ih others
    refine ⟨v :: more, rfl, fun w there => ?_, fun x => ?_⟩
    · rcases source w there with old | new
      · split at old
        · exact .inl old
        · rcases List.mem_append.1 old with old | only
          · exact .inl old
          · exact .inr (List.mem_cons.2 (.inl (List.mem_singleton.1 only)))
      · exact .inr (List.mem_cons_of_mem _ new)
    · have cons : x.isAmong (v :: more) = true ↔ v.equals x = true ∨ x.isAmong more = true := by
        simp [Value.isAmong]
      rw [among, cons, ← or_assoc]
      refine or_congr_left ?_
      split
      · next seen =>
        exact ⟨.inl, fun either => either.elim id (Value.isAmong_of_equals seen)⟩
      · rw [Value.isAmong_append, Value.isAmong_singleton]

theorem alternatives_ok (h : alternatives parts = .ok (key, all)) :
    ∃ values : List Value, values ≠ [] ∧ parts = values.map (.equals key) ∧ (∀ v ∈ all, v ∈ values) ∧
      ∀ x : Value, x.isAmong all = x.isAmong values := by
  cases parts with
  | nil => cases h
  | cons part rest =>
    obtain ⟨⟨k, v⟩, first, others⟩ := bind_ok_iff.1 h
    obtain rfl := equality_ok.1 first
    obtain ⟨all', found, made⟩ := bind_ok_iff.1 others
    obtain ⟨rfl, rfl⟩ := Prod.mk.inj (pure_ok_iff.1 made)
    obtain ⟨more, rfl, source, among⟩ := moreAlternatives_ok found
    refine ⟨v :: more, List.cons_ne_nil v more, rfl, fun w there => ?_, fun x => ?_⟩
    · simpa using source w there
    · rw [Bool.eq_iff_iff, among, ← Value.isAmong_append]
      rfl

/-- What is held of constraints to which those of a condition came. -/
structure Absorbs (c : Constraints) (condition : Condition) (c' : Constraints) : Prop where
  lookup : condition.IsLookup
  named : ∀ key, (c'.get? key).isSome ↔ (c.get? key).isSome ∨ key ∈ condition.keys
  source : ∀ key values, c'.get? key = some values → ∀ v ∈ values,
    (∃ held, c.get? key = some held ∧ v ∈ held) ∨ (key, v) ∈ condition.leaves
  allows : ∀ choice, c'.Allows choice ↔ c.Allows choice ∧ condition.holds choice = true

theorem absorbs_nil (c : Constraints) : c.Absorbs (.and []) c where
  lookup := .conjunction [] nofun
  named key := by simp [Condition.keys, Condition.leaves, Condition.leavesOf]
  source key values known v there := .inl ⟨values, known, there⟩
  allows choice := by simp [Condition.holds, Condition.allHold]

theorem absorbs_equality (c : Constraints) (key : SchemaId) (v : Value) :
    c.Absorbs (.equals key v) (c.constrain key [v]) where
  lookup := .equality key v
  named k := by simp [isSome_constrain, Condition.equals, Condition.keys, Condition.leaves]
  source k values known w there :=
    (mem_constrain known there).imp id fun ⟨same, only⟩ => by
      simp [Condition.equals, Condition.leaves, same, List.mem_singleton.1 only]
  allows choice := by
    rw [allows_constrain, Value.isAmong_singleton, Value.equals_comm]
    rfl

theorem absorbs_alternatives (c : Constraints) (h : alternatives parts = .ok (key, all)) :
    c.Absorbs (.or parts) (c.constrain key all) := by
  obtain ⟨values, some, rfl, source, among⟩ := alternatives_ok h
  refine ⟨.alternatives key values some, fun k => ?_, fun k held known v there => ?_, fun choice => ?_⟩
  · rw [isSome_constrain, Condition.keys, List.mem_map]
    refine or_congr_right ⟨?_, ?_⟩
    · rintro rfl
      obtain ⟨v, there⟩ := List.exists_mem_of_ne_nil values some
      exact ⟨(k, v), Condition.mem_leaves_alternatives.2 ⟨rfl, there⟩, rfl⟩
    · rintro ⟨e, there, rfl⟩
      exact (Condition.mem_leaves_alternatives.1 there).1
  · refine (mem_constrain known there).imp id fun ⟨same, member⟩ => ?_
    exact Condition.mem_leaves_alternatives.2 ⟨same, source v member⟩
  · rw [allows_constrain, among, Condition.holds, Condition.someHolds_alternatives]

theorem Absorbs.cons {rest : List Condition} (first : c.Absorbs part c')
    (others : c'.Absorbs (.and rest) c'') : c.Absorbs (.and (part :: rest)) c'' where
  lookup := first.lookup.and_cons others.lookup
  named key := by
    rw [others.named, first.named, or_assoc]
    simp [Condition.keys, Condition.leaves, Condition.leavesOf]
  source key values known v there := by
    rw [Condition.leaves, Condition.leavesOf, List.mem_append]
    rcases others.source key values known v there with ⟨held, before, member⟩ | later
    · exact (first.source key held before v member).imp id .inl
    · exact .inr (.inr later)
  allows choice := by
    rw [others.allows, first.allows, and_assoc, Condition.holds, Condition.holds, Condition.allHold,
      Bool.and_eq_true]

mutual
theorem absorbs_of_collect : ∀ {condition : Condition} {c c' : Constraints},
    collect c condition = .ok c' → c.Absorbs condition c'
  | .and parts, _, _, h => absorbs_of_collectAll h
  | .or parts, c, c', h => by
    obtain ⟨⟨key, all⟩, found, h⟩ := bind_ok_iff.1 h
    obtain rfl := pure_ok_iff.1 h
    exact absorbs_alternatives c found
  | .leaf key predicate value, c, c', h => by
    obtain ⟨⟨k, v⟩, found, h⟩ := bind_ok_iff.1 h
    obtain rfl := pure_ok_iff.1 h
    rw [equality_ok.1 found]
    exact absorbs_equality c k v
  | .not _, _, _, h => nomatch h

theorem absorbs_of_collectAll : ∀ {parts : List Condition} {c c' : Constraints},
    collectAll c parts = .ok c' → c.Absorbs (.and parts) c'
  | [], c, c', h => by
    obtain rfl := Except.ok.inj h
    exact absorbs_nil c
  | part :: rest, c, c', h => by
    obtain ⟨c₁, first, others⟩ := bind_ok_iff.1 h
    exact (absorbs_of_collect first).cons (absorbs_of_collectAll others)
end

theorem moreAlternatives_taken (key : SchemaId) (values more : List Value) :
    ∃ all, moreAlternatives key values (more.map (.equals key)) = .ok all := by
  induction more generalizing values with
  | nil => exact ⟨values, rfl⟩
  | cons v rest ih =>
    obtain ⟨all, found⟩ := ih (if v.isAmong values then values else values ++ [v])
    refine ⟨all, bind_ok_iff.2 ⟨(key, v), rfl, ?_⟩⟩
    simp only [ne_eq, not_true_eq_false, if_false]
    exact found

/-- A condition of the right build is taken. -/
theorem collect_of_isLookup (h : condition.IsLookup) : ∀ c, ∃ c', collect c condition = .ok c' := by
  induction h with
  | equality key value => exact fun c => ⟨c.constrain key [value], rfl⟩
  | alternatives key values some =>
    intro c
    obtain ⟨v, rest, rfl⟩ := List.exists_cons_of_ne_nil some
    obtain ⟨all, found⟩ := moreAlternatives_taken key [v] rest
    have taken : alternatives ((v :: rest).map (.equals key)) = .ok (key, all) :=
      bind_ok_iff.2 ⟨(key, v), rfl, bind_ok_iff.2 ⟨all, found, rfl⟩⟩
    exact ⟨c.constrain key all, bind_ok_iff.2 ⟨(key, all), taken, rfl⟩⟩
  | conjunction parts each ih =>
    clear each
    induction parts with
    | nil => exact fun c => ⟨c, rfl⟩
    | cons part rest more =>
      intro c
      obtain ⟨first, others⟩ := List.forall_mem_cons.1 ih
      obtain ⟨c₁, taken⟩ := first c
      obtain ⟨c', all⟩ := more others c₁
      exact ⟨c', bind_ok_iff.2 ⟨c₁, taken, all⟩⟩

end Constraints

end GraphStore
