import GraphStore.Index.Document
import GraphStore.Proofs.Value.Equality
import Mathlib.Data.List.Forall2

/-!
What updates do to the values of a field. Values that are the same stay so, and an update that was done once
is done until another one undoes it: a SINGLE field holds the value that came last, a SET field each value
once.
-/
namespace GraphStore

/-- The values that a field holds. -/
inductive FieldContent where
  | absent
  | single (v : Json)
  | many (vs : List Json)

namespace FieldContent

def ofSlot : Option FieldSlot → FieldContent
  | none => absent
  | some (.single v) => single v.value
  | some (.many vs) => many (vs.map (·.value))

/-- The values of a field that is to hold many. -/
def values : FieldContent → List Json
  | many vs => vs
  | _ => []

def isAmong (v : Json) (vs : List Json) : Bool := vs.any (·.equals v)

/-- Many values; a field without any is not there. -/
def ofMany (vs : List Json) : FieldContent := if vs.isEmpty then absent else many vs

/-- The same values, in the same order. -/
inductive Same : FieldContent → FieldContent → Prop where
  | absent : Same absent absent
  | single {v w : Json} (value : v.Same w) : Same (single v) (single w)
  | many {vs ws : List Json} (values : List.Forall₂ Json.Same vs ws) : Same (many vs) (many ws)

/-- No two of many values are equal. -/
def Once (c : FieldContent) : Prop := c.values.Pairwise fun v w => v.equals w = false

end FieldContent

/-- What is left of the values of a field when a value comes. -/
def FieldContent.added (c : Cardinality) (v : Json) (held : FieldContent) : FieldContent :=
  match c with
  | .single => .single v
  | .set => .many (if isAmong v held.values then held.values else held.values ++ [v])
  | .list => .many (held.values ++ [v])

/-- What is left of the values of a field when a value goes. -/
def FieldContent.deleted (c : Cardinality) (v : Json) (held : FieldContent) : FieldContent :=
  match c, held with
  | .single, _ => .absent
  | _, .many vs => .ofMany (vs.eraseP (·.equals v))
  | _, held => held

/-- What an update leaves of the values of its field. -/
def MixedUpdate.leave (u : MixedUpdate) (held : FieldContent) : FieldContent :=
  match u.kind with
  | .add => held.added u.cardinality u.value.value
  | .delete => held.deleted u.cardinality u.value.value

namespace FieldContent

variable {held held' : FieldContent} {v w : Json} {vs ws : List Json} {c : Cardinality}

theorem isAmong_iff : isAmong v vs = true ↔ ∃ w ∈ vs, w.equals v = true := List.any_eq_true

theorem isAmong_eq_false_iff : isAmong v vs = false ↔ ∀ w ∈ vs, w.equals v = false := by
  simp [isAmong]

theorem isAmong_congr (same : List.Forall₂ Json.Same vs ws) : isAmong v vs = isAmong v ws := by
  induction same with
  | nil => rfl
  | cons first _ ih =>
    simp only [isAmong, List.any_cons] at ih ⊢
    rw [first.equals_left, ih]

theorem forall₂_eraseP (same : List.Forall₂ Json.Same vs ws) :
    List.Forall₂ Json.Same (vs.eraseP (·.equals v)) (ws.eraseP (·.equals v)) := by
  induction same with
  | nil => exact .nil
  | @cons a b _ _ first others ih =>
    rw [List.eraseP_cons, List.eraseP_cons, first.equals_left]
    cases b.equals v with
    | true => exact others
    | false => exact .cons first ih

theorem Same.refl (held : FieldContent) : held.Same held := by
  cases held with
  | absent => exact .absent
  | single v => exact .single (.refl v)
  | many vs => exact .many (List.forall₂_same.2 fun v _ => .refl v)

theorem Same.values (same : held.Same held') : List.Forall₂ Json.Same held.values held'.values := by
  cases same with
  | many values => exact values
  | _ => exact .nil

theorem Same.added (same : held.Same held') : (held.added c v).Same (held'.added c v) := by
  cases c with
  | single => exact .refl _
  | set =>
    rw [FieldContent.added, FieldContent.added, isAmong_congr same.values]
    split
    · exact .many same.values
    · exact .many (List.rel_append same.values (.cons (.refl v) .nil))
  | list => exact .many (List.rel_append same.values (.cons (.refl v) .nil))

theorem Same.ofMany (same : List.Forall₂ Json.Same vs ws) : (ofMany vs).Same (.ofMany ws) := by
  cases same with
  | nil => exact .absent
  | cons first others => exact .many (.cons first others)

theorem Same.deleted (same : held.Same held') : (held.deleted c v).Same (held'.deleted c v) := by
  cases c with
  | single => exact .absent
  | _ =>
    cases same with
    | absent => exact .absent
    | single value => exact .single value
    | many values => exact .ofMany (forall₂_eraseP values)

theorem values_ofMany (vs : List Json) : (ofMany vs).values = vs := by cases vs <;> rfl

theorem ofMany_ne (vs : List Json) : ofMany vs ≠ many [] := by cases vs <;> exact nofun

end FieldContent

namespace MixedUpdate

/-- Nothing of the update is left to do. -/
def Settled (u : MixedUpdate) (held : FieldContent) : Prop :=
  match u.kind, u.cardinality with
  | .add, .single => ∃ v : Json, held = .single v ∧ v.Same u.value.value
  | .add, _ => ∃ vs, held = .many vs ∧ FieldContent.isAmong u.value.value vs = true
  | .delete, .single => held = .absent
  | .delete, _ => held ≠ .many [] ∧ FieldContent.isAmong u.value.value held.values = false

/-- An update that changes what another one did to a field. -/
def Undoes (x u : MixedUpdate) : Prop :=
  x.index = u.index ∧ x.element.documentId = u.element.documentId ∧ x.field = u.field ∧
    match u.cardinality with
    | .single => x.kind ≠ u.kind ∨ x.kind = .add ∧ x.value.value.equals u.value.value = false
    | _ => x.kind ≠ u.kind ∧ x.value.value.equals u.value.value = true

theorem sameTarget_iff {a b : MixedUpdate} : a.sameTarget b = true ↔
    a.cardinality ≠ .list ∧ a.cardinality = b.cardinality ∧ a.index = b.index ∧ a.kind = b.kind ∧
      a.element = b.element ∧ a.field = b.field ∧ a.value.value.equals b.value.value = true := by
  simp only [sameTarget, Bool.and_eq_true, decide_eq_true_eq, and_assoc]

end MixedUpdate

namespace FieldContent

variable {held other : FieldContent} {u x : MixedUpdate} {v w : Json} {vs : List Json} {c : Cardinality}

theorem Same.leave (same : held.Same other) (u : MixedUpdate) : (u.leave held).Same (u.leave other) := by
  rw [MixedUpdate.leave, MixedUpdate.leave]
  cases u.kind with
  | add => exact same.added
  | delete => exact same.deleted

/-- A settled update leaves the values as they are. -/
theorem same_of_settled (same : other.Same held) (settled : u.Settled held)
    (bound : u.cardinality ≠ .list) : other.Same (u.leave held) := by
  rw [MixedUpdate.leave]
  rw [MixedUpdate.Settled] at settled
  cases kind : u.kind <;> cases cardinality : u.cardinality <;>
    simp only [kind, cardinality] at settled
  case add.single =>
    obtain ⟨v, rfl, value⟩ := settled
    cases same with
    | single first => exact .single (first.trans value)
  case add.set =>
    obtain ⟨vs, rfl, there⟩ := settled
    simp only [added, values, there, if_true]
    exact same
  case delete.single =>
    subst settled
    exact same
  case delete.set =>
    obtain ⟨filled, absent⟩ := settled
    cases held with
    | many vs =>
      have kept : vs.eraseP (·.equals u.value.value) = vs :=
        List.eraseP_of_forall_not fun w there => by
          simp [isAmong_eq_false_iff.1 absent w there]
      have some : vs.isEmpty = false := by
        rw [List.isEmpty_eq_false_iff]
        exact fun empty => filled (empty ▸ rfl)
      simp only [deleted, ofMany, kept, some, Bool.false_eq_true, if_false]
      exact same
    | _ => exact same
  all_goals exact absurd cardinality bound

theorem isAmong_append : isAmong v (vs ++ [w]) = (isAmong v vs || w.equals v) := by
  simp [isAmong]

theorem isAmong_of_equals (same : v.equals w = true) : isAmong v vs = isAmong w vs := by
  refine congrArg (List.any vs) (funext fun x => ?_)
  rw [Json.equals_comm x v, Json.equals_comm x w]
  exact (Json.Same.equals_left (.inr same))

theorem Once.added (once : held.Once) (several : c ≠ .list) : (held.added c v).Once := by
  cases c with
  | single => exact .nil
  | list => exact absurd rfl several
  | set =>
    rw [FieldContent.added, Once]
    split
    · exact once
    · next absent =>
      have apart := isAmong_eq_false_iff.1 (Bool.not_eq_true _ ▸ absent)
      exact List.pairwise_append.2 ⟨once, List.pairwise_singleton .., by simpa using apart⟩

theorem Once.deleted (once : held.Once) : (held.deleted c v).Once := by
  cases c with
  | single => exact .nil
  | _ =>
    cases held with
    | many vs =>
      rw [FieldContent.deleted, Once, values_ofMany]
      · exact once.sublist List.eraseP_sublist
      · exact nofun
    | _ => exact .nil

theorem Once.leave (once : held.Once) (several : u.cardinality ≠ .list) : (u.leave held).Once := by
  rw [MixedUpdate.leave]
  cases u.kind with
  | add => exact once.added several
  | delete => exact once.deleted

/-- What goes out of values that are there once is not among the others. -/
theorem isAmong_eraseP (once : vs.Pairwise fun v w => v.equals w = false) :
    isAmong v (vs.eraseP (·.equals v)) = false := by
  induction vs with
  | nil => rfl
  | cons first rest ih =>
    obtain ⟨apart, once⟩ := List.pairwise_cons.1 once
    rw [List.eraseP_cons]
    cases here : first.equals v with
    | true =>
      rw [cond_true, isAmong_eq_false_iff]
      intro w there
      rw [Json.equals_comm, ← Json.Same.equals_left (.inr here)]
      exact apart w there
    | false =>
      have absent := ih once
      simp only [isAmong, cond_false, List.any_cons, here, Bool.false_or] at absent ⊢
      exact absent

theorem isAmong_eraseP_of_ne (there : isAmong v vs = true) (apart : w.equals v = false) :
    isAmong v (vs.eraseP (·.equals w)) = true := by
  obtain ⟨x, member, same⟩ := isAmong_iff.1 there
  refine isAmong_iff.2 ⟨x, (List.mem_eraseP_of_neg ?_).2 member, same⟩
  intro equal
  rw [Json.equals_comm] at equal
  rw [Json.equals_trans equal same] at apart
  cases apart

theorem isAmong_of_eraseP (absent : isAmong v vs = false) :
    isAmong v (vs.eraseP (·.equals w)) = false :=
  isAmong_eq_false_iff.2 fun x there => isAmong_eq_false_iff.1 absent x (List.mem_of_mem_eraseP there)

/-- An update settles those that are like it. -/
theorem settled_of_sameTarget (like : x.sameTarget u = true) (once : held.Once) : u.Settled (x.leave held) := by
  obtain ⟨bound, cardinality, -, kind, -, -, value⟩ := MixedUpdate.sameTarget_iff.1 like
  rw [MixedUpdate.Settled, MixedUpdate.leave, ← kind, ← cardinality]
  cases x.kind <;> cases several : x.cardinality <;> simp only
  case add.single => exact ⟨_, rfl, .inr value⟩
  case add.set =>
    refine ⟨_, rfl, ?_⟩
    rw [← isAmong_of_equals value]
    split
    · next there => exact there
    · have back := value
      rw [Json.equals_comm] at back
      rw [isAmong_append, Json.equals_trans value back, Bool.or_true]
  case delete.single => rfl
  case delete.set =>
    rw [← isAmong_of_equals value]
    cases held with
    | many vs =>
      refine ⟨ofMany_ne _, ?_⟩
      rw [deleted, values_ofMany]
      · exact isAmong_eraseP once
      · exact nofun
    | _ => exact ⟨nofun, rfl⟩
  all_goals exact absurd several bound

theorem isAmong_added (there : isAmong v vs = true) :
    isAmong v (if isAmong w vs then vs else vs ++ [w]) = true := by
  split
  · exact there
  · rw [isAmong_append, there, Bool.true_or]

theorem isAmong_added_of_ne (absent : isAmong v vs = false) (apart : w.equals v = false) :
    isAmong v (if isAmong w vs then vs else vs ++ [w]) = false := by
  split
  · exact absent
  · rw [isAmong_append, absent, apart, Bool.false_or]

theorem added_ne_nil : (if isAmong v vs then vs else vs ++ [v]) ≠ [] := by
  split
  · next there =>
    rintro rfl
    cases there
  · simp

theorem ofMany_of_isAmong (there : isAmong v vs = true) : ofMany vs = many vs := by
  cases vs with
  | nil => cases there
  | cons => rfl

/-- What is settled stays so until an update undoes it. -/
theorem settled_leave (settled : u.Settled held) (bound : u.cardinality ≠ .list)
    (cardinality : x.cardinality = u.cardinality) (index : x.index = u.index)
    (document : x.element.documentId = u.element.documentId) (field : x.field = u.field)
    (free : ¬x.Undoes u) : u.Settled (x.leave held) := by
  simp only [MixedUpdate.Undoes, index, document, field, true_and] at free
  rw [MixedUpdate.Settled] at settled
  rw [MixedUpdate.Settled, MixedUpdate.leave, cardinality]
  cases several : u.cardinality with
  | list => exact absurd several bound
  | single =>
    simp only [several, not_or, not_and, Bool.not_eq_false, ne_eq, not_not] at free settled ⊢
    rw [free.1]
    cases kind : u.kind with
    | add => exact ⟨_, rfl, .inr (free.2 (free.1.trans kind))⟩
    | delete => rfl
  | set =>
    simp only [several, not_and, Bool.not_eq_true, ne_eq] at free settled ⊢
    cases kind : u.kind <;> cases kind' : x.kind <;> simp only [kind, kind'] at free settled ⊢
    case add.add =>
      obtain ⟨vs, rfl, there⟩ := settled
      exact ⟨_, rfl, isAmong_added there⟩
    case add.delete =>
      obtain ⟨vs, rfl, there⟩ := settled
      have left := isAmong_eraseP_of_ne there (free nofun)
      exact ⟨_, ofMany_of_isAmong left, left⟩
    case delete.add =>
      exact ⟨fun same => added_ne_nil (many.inj same), isAmong_added_of_ne settled.2 (free nofun)⟩
    case delete.delete =>
      cases held with
      | many vs =>
        refine ⟨ofMany_ne _, ?_⟩
        rw [deleted, values_ofMany]
        · exact isAmong_of_eraseP settled.2
        · exact nofun
      | _ => exact settled

end FieldContent

end GraphStore
