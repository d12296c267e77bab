import GraphStore.Attempt
import Mathlib.Order.Defs.Unbundled

/-!
What success says of steps in sequence, that each of them succeeded, what holds whatever comes of them, and when two
of them keep in step.
-/
namespace GraphStore

variable {σ ε α β : Type}

theorem bind_ok_iff {x : Except ε α} {f : α → Except ε β} {b : β} :
    (x >>= f) = .ok b ↔ ∃ a, x = .ok a ∧ f a = .ok b := by
  cases x with
  | ok a =>
    constructor
    · exact fun h => ⟨a, rfl, h⟩
    · rintro ⟨a', same, h⟩
      rw [Except.ok.inj same]
      exact h
  | error fault =>
    constructor
    · exact nofun
    · rintro ⟨_, absent, _⟩
      cases absent

theorem pure_ok_iff {a b : α} : (pure a : Except ε α) = .ok b ↔ a = b :=
  ⟨Except.ok.inj, congrArg _⟩

theorem map_ok_iff {x : Except ε α} {f : α → β} {b : β} : x.map f = .ok b ↔ ∃ a, x = .ok a ∧ f a = b := by
  cases x <;> simp [Except.map]

/-- The fault of a result, if it is one. -/
def faultOf : Except ε α → Option ε
  | .ok _ => none
  | .error fault => some fault

@[simp] theorem faultOf_map (x : Except ε α) (f : α → β) : faultOf (x.map f) = faultOf x := by
  cases x <;> rfl

theorem faultOf_eq_none_iff {x : Except ε α} : faultOf x = none ↔ ∃ a, x = .ok a := by
  cases x <;> simp [faultOf]

theorem faultOf_eq_some_iff {x : Except ε α} {fault : ε} : faultOf x = some fault ↔ x = .error fault := by
  cases x <;> simp [faultOf]

theorem Attempt.bind_run_ok_iff {r : Attempt σ ε α} {f : α → Attempt σ ε β} {s t : σ} {b : β} :
    (r >>= f) s = (.ok b, t) ↔ ∃ a u, r s = (.ok a, u) ∧ f a u = (.ok b, t) := by
  constructor
  · intro h
    cases run : r s with
    | mk result u =>
      cases result with
      | ok a => exact ⟨a, u, rfl, (Attempt.bind_run_ok run).symm.trans h⟩
      | error fault => cases (Attempt.bind_run_error run).symm.trans h
  · rintro ⟨a, u, first, second⟩
    exact (Attempt.bind_run_ok first).trans second

theorem Attempt.bind_run_error_iff {r : Attempt σ ε α} {f : α → Attempt σ ε β} {s t : σ} {fault : ε} :
    (r >>= f) s = (.error fault, t) ↔
      r s = (.error fault, t) ∨ ∃ a u, r s = (.ok a, u) ∧ f a u = (.error fault, t) := by
  cases run : r s with
  | mk result u =>
    cases result with
    | ok a =>
      rw [Attempt.bind_run_ok run]
      constructor
      · exact fun h => .inr ⟨a, u, rfl, h⟩
      · rintro (absent | ⟨_, _, same, h⟩)
        · cases absent
        · cases same
          exact h
    | error other => simp [Attempt.bind_run_error run]

theorem Attempt.map_run {r : Attempt σ ε α} {f : α → β} {s : σ} :
    (do return f (← r) : Attempt σ ε β) s = ((r s).1.map f, (r s).2) := by
  cases run : r s with
  | mk result u =>
    cases result with
    | ok a => rw [Attempt.bind_run_ok run]; rfl
    | error other => rw [Attempt.bind_run_error run]; rfl

theorem Attempt.lift_run {e : Except ε α} {a : α} (h : e = .ok a) (s : σ) :
    (Attempt.lift e : Attempt σ ε α) s = (.ok a, s) := by
  rw [h]
  rfl

/-- Whatever comes of the step, it takes a state only to one that is related to it. -/
def Attempt.Moves (R : σ → σ → Prop) (r : Attempt σ ε α) : Prop := ∀ s, R s (r s).2

namespace Attempt.Moves

variable {R : σ → σ → Prop} {r : Attempt σ ε α}

theorem of_still [Std.Refl R] (still : ∀ s, (r s).2 = s) : Moves R r := fun s => by
  rw [still]
  exact Std.Refl.refl s

theorem pure [Std.Refl R] (a : α) : Moves R (Pure.pure a : Attempt σ ε α) := of_still fun _ => rfl

/-- The second step is taken only from where the first one led with success. -/
theorem bind_ok [IsTrans σ R] {f : α → Attempt σ ε β} (first : Moves R r)
    (second : ∀ s a t, r s = (.ok a, t) → R t (f a t).2) : Moves R (r >>= f) := by
  intro s
  cases run : r s with
  | mk result t =>
    have there : R s t := by
      rw [← show (r s).2 = t by rw [run]]
      exact first s
    cases result with
    | ok a =>
      rw [Attempt.bind_run_ok run]
      exact IsTrans.trans _ _ _ there (second s a t run)
    | error fault =>
      rw [Attempt.bind_run_error run]
      exact there

theorem bind [IsTrans σ R] {f : α → Attempt σ ε β} (first : Moves R r) (second : ∀ a, Moves R (f a)) :
    Moves R (r >>= f) := bind_ok first fun _ a t _ => second a t

end Attempt.Moves

/-- Steps in sequence have the property if each of them does, and steps that leave the state alone have it. -/
structure Attempt.Composes (P : ∀ {α : Type}, Attempt σ ε α → Prop) : Prop where
  lift : ∀ {α : Type} (e : Except ε α), P (Attempt.lift e)
  bind : ∀ {α β : Type} {r : Attempt σ ε α} {f : α → Attempt σ ε β}, P r → (∀ a, P (f a)) → P (r >>= f)

theorem Attempt.Composes.pure {P : ∀ {α : Type}, Attempt σ ε α → Prop} (composes : Composes P) {α : Type}
    (a : α) : P (Pure.pure a : Attempt σ ε α) := composes.lift (.ok a)

theorem Attempt.Composes.each {P : ∀ {α : Type}, Attempt σ ε α → Prop} (composes : Composes P) {α : Type}
    {f : α → Attempt σ ε Unit} {l : List α} (steps : ∀ a ∈ l, P (f a)) : P (Attempt.each f l) := by
  induction l with
  | nil => exact composes.pure ()
  | cons a rest ih =>
    obtain ⟨first, others⟩ := List.forall_mem_cons.1 steps
    exact composes.bind first fun _ => ih others

namespace Attempt.Moves

variable {R : σ → σ → Prop} [Std.Refl R] [IsTrans σ R] {f : α → Attempt σ ε Unit} {l : List α}

theorem composes : Composes fun {α} (r : Attempt σ ε α) => Moves R r :=
  ⟨fun _ => of_still fun _ => rfl, bind⟩

theorem each (moves : ∀ a ∈ l, Moves R (f a)) : Moves R (Attempt.each f l) := composes.each moves

/-- If all of the steps succeed, each of them does, from a state on the way to one on the way. -/
theorem each_ok (moves : ∀ a ∈ l, Moves R (f a)) {s t : σ} (h : Attempt.each f l s = (.ok (), t)) :
    ∀ a ∈ l, ∃ u u', R s u ∧ f a u = (.ok (), u') ∧ R u' t := by
  induction l generalizing s with
  | nil => exact nofun
  | cons a rest ih =>
    obtain ⟨one, others⟩ := List.forall_mem_cons.1 moves
    obtain ⟨_, m, first, later⟩ := Attempt.bind_run_ok_iff.1 h
    have before : R s m := by
      rw [← show (f a s).2 = m by rw [first]]
      exact one s
    have after : R m t := by
      rw [← show (Attempt.each f rest m).2 = t by rw [later]]
      exact each others m
    intro b member
    rcases List.mem_cons.1 member with rfl | later'
    · exact ⟨s, m, Std.Refl.refl s, first, after⟩
    · obtain ⟨u, u', there, run, on⟩ := ih others later b later'
      exact ⟨u, u', IsTrans.trans _ _ _ before there, run, on⟩

end Attempt.Moves

/-- If all of the steps succeed, each of them does from some state. -/
theorem Attempt.each_ok {f : α → Attempt σ ε Unit} {l : List α} {s t : σ}
    (h : Attempt.each f l s = (.ok (), t)) : ∀ a ∈ l, ∃ u u', f a u = (.ok (), u') := by
  intro a member
  have here : Std.Refl fun _ _ : σ => True := ⟨fun _ => trivial⟩
  have on : IsTrans σ fun _ _ => True := ⟨fun _ _ _ _ _ => trivial⟩
  have anywhere : ∀ b ∈ l, Moves (fun _ _ => True) (f b) := fun _ _ _ => trivial
  obtain ⟨u, u', -, run, -⟩ := Moves.each_ok anywhere h a member
  exact ⟨u, u', run⟩

/-- The step looks at a state only through a view of it, and leaves that view as it is. -/
def Attempt.Through {ν : Type} (view : σ → ν) (r : Attempt σ ε α) : Prop :=
  ∀ s, view (r s).2 = view s ∧ ∀ s', view s' = view s → (r s').1 = (r s).1

namespace Attempt.Through

variable {ν : Type} {view : σ → ν} {r : Attempt σ ε α}

theorem lift (e : Except ε α) : Through view (Attempt.lift e : Attempt σ ε α) :=
  fun _ => ⟨rfl, fun _ _ => rfl⟩

/-- Each of two such steps gives what it gives from the first state. -/
theorem bind_result {f : α → Attempt σ ε β} (first : Through view r) (second : ∀ a, Through view (f a))
    (s : σ) : ((r >>= f) s).1 = (r s).1 >>= fun a => (f a s).1 := by
  cases run : r s with
  | mk result t =>
    have seen : view t = view s := by
      rw [← show (r s).2 = t by rw [run]]
      exact (first s).1
    cases result with
    | ok a =>
      rw [Attempt.bind_run_ok run]
      exact (second a s).2 t seen
    | error fault =>
      rw [Attempt.bind_run_error run]
      rfl

theorem bind {f : α → Attempt σ ε β} (first : Through view r) (second : ∀ a, Through view (f a)) :
    Through view (r >>= f) := by
  intro s
  refine ⟨?_, fun s' seen => ?_⟩
  · have follows : IsTrans σ fun s t => view t = view s := ⟨fun _ _ _ here there => there.trans here⟩
    have both : Moves (fun s t => view t = view s) (r >>= f) :=
      Moves.bind (fun s => (first s).1) fun a s => (second a s).1
    exact both s
  · rw [bind_result first second, bind_result first second, (first s).2 s' seen]
    congr 1
    funext a
    exact (second a s).2 s' seen

theorem composes : Composes fun {α} (r : Attempt σ ε α) => Through view r := ⟨lift, bind⟩

theorem pure (a : α) : Through view (Pure.pure a : Attempt σ ε α) := composes.pure a

/-- What is read of the state is no more than the view shows. -/
theorem get_bind {f : σ → Attempt σ ε β} (steps : ∀ s, Through view (f s))
    (alike : ∀ s s', view s' = view s → f s' = f s) : Through view (Attempt.get >>= f) := by
  intro s
  refine ⟨(steps s s).1, fun s' seen => ?_⟩
  show (f s' s').1 = (f s s).1
  rw [alike s s' seen]
  exact (steps s s).2 s' seen

end Attempt.Through

/-- From related states the two steps come to the same result and to related states, unless the first is spoilt. -/
def Attempt.Agree (R : σ → σ → Prop) (spoils : ε → Prop) (r r' : Attempt σ ε α) : Prop :=
  ∀ s s', R s s' → (∃ fault, (r s).1 = .error fault ∧ spoils fault) ∨
    (r' s').1 = (r s).1 ∧ R (r s).2 (r' s').2

namespace Attempt.Agree

variable {R : σ → σ → Prop} {spoils : ε → Prop} {r r' : Attempt σ ε α}

theorem lift (e : Except ε α) : Agree R spoils (Attempt.lift e) (Attempt.lift e) :=
  fun _ _ related => .inr ⟨rfl, related⟩

theorem pure (a : α) : Agree R spoils (Pure.pure a : Attempt σ ε α) (Pure.pure a) := lift (.ok a)

theorem bind {f f' : α → Attempt σ ε β} (first : Agree R spoils r r') (second : ∀ a, Agree R spoils (f a) (f' a)) :
    Agree R spoils (r >>= f) (r' >>= f') := by
  intro s s' related
  have either := first s s' related
  cases run : r s with
  | mk result t =>
    cases run' : r' s' with
    | mk result' t' =>
      rw [run, run'] at either
      cases result with
      | error fault =>
        rw [Attempt.bind_run_error run]
        rcases either with spoilt | ⟨same, related⟩
        · obtain ⟨fault', same, spoils⟩ := spoilt
          exact .inl ⟨fault, rfl, Except.error.inj same ▸ spoils⟩
        · obtain rfl : result' = .error fault := same
          rw [Attempt.bind_run_error run']
          exact .inr ⟨rfl, related⟩
      | ok a =>
        rw [Attempt.bind_run_ok run]
        rcases either with ⟨_, absent, _⟩ | ⟨same, related⟩
        · cases absent
        · obtain rfl : result' = .ok a := same
          rw [Attempt.bind_run_ok run']
          exact second a t t' related

/-- Steps over a list keep in step with those over what is picked from it, if nothing comes of the others. -/
theorem each_filterMap {f : α → Attempt σ ε Unit} {g : β → Attempt σ ε Unit} {pick : α → Option β} {l : List α}
    (kept : ∀ a ∈ l, ∀ b, pick a = some b → Agree R spoils (f a) (g b))
    (idle : ∀ a ∈ l, pick a = none → f a = Pure.pure ()) :
    Agree R spoils (Attempt.each f l) (Attempt.each g (l.filterMap pick)) := by
  induction l with
  | nil => exact pure ()
  | cons a rest ih =>
    obtain ⟨first, kept⟩ := List.forall_mem_cons.1 kept
    obtain ⟨nothing, idle⟩ := List.forall_mem_cons.1 idle
    cases picked : pick a with
    | some b =>
      rw [List.filterMap_cons_some picked]
      exact (first b picked).bind fun _ => ih kept idle
    | none =>
      rw [List.filterMap_cons_none picked, Attempt.each, nothing picked]
      exact ih kept idle

theorem each_map {f : α → Attempt σ ε Unit} {g : β → Attempt σ ε Unit} {image : α → β} {l : List α}
    (steps : ∀ a ∈ l, Agree R spoils (f a) (g (image a))) :
    Agree R spoils (Attempt.each f l) (Attempt.each g (l.map image)) := by
  rw [← List.filterMap_eq_map]
  exact each_filterMap (fun a there b same => Option.some.inj same ▸ steps a there) nofun

theorem each {f g : α → Attempt σ ε Unit} {l : List α} (steps : ∀ a ∈ l, Agree R spoils (f a) (g a)) :
    Agree R spoils (Attempt.each f l) (Attempt.each g l) := by
  have all : Agree R spoils (Attempt.each f l) (Attempt.each g (l.map id)) := each_map steps
  rwa [List.map_id] at all

/-- What is read of the states leads to steps that agree. -/
theorem get_bind {f f' : σ → Attempt σ ε α} (steps : ∀ s s', R s s' → Agree R spoils (f s) (f' s')) :
    Agree R spoils (Attempt.get >>= f) (Attempt.get >>= f') :=
  fun s s' related => steps s s' related s s' related

end Attempt.Agree

end GraphStore
