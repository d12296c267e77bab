/-!
Steps that may fail but keep what they did before: the state is there on a fault as well. Readers are
such steps on the bytes still to read, planners on what they have planned so far.
-/
namespace GraphStore

def Attempt (σ ε α : Type) : Type := σ → Except ε α × σ

namespace Attempt

variable {σ ε α β : Type}

def pure (a : α) : Attempt σ ε α := fun s => (.ok a, s)

def bind (r : Attempt σ ε α) (f : α → Attempt σ ε β) : Attempt σ ε β := fun s =>
  match r s with
  | (.ok a, s) => f a s
  | (.error fault, s) => (.error fault, s)

instance : Monad (Attempt σ ε) where
  pure := pure
  bind := bind

def fail (fault : ε) : Attempt σ ε α := fun s => (.error fault, s)

/-- A result found without touching the state. -/
def lift (e : Except ε α) : Attempt σ ε α := fun s => (e, s)

def get : Attempt σ ε σ := fun s => (.ok s, s)

def modify (f : σ → σ) : Attempt σ ε Unit := fun s => (.ok (), f s)

/-- Work on a part of a state. -/
def within {τ : Type} (part : τ → σ) (replace : τ → σ → τ) (r : Attempt σ ε α) : Attempt τ ε α :=
  fun t =>
    match r (part t) with
    | (result, s) => (result, replace t s)

@[simp] theorem pure_run (a : α) (s : σ) : (Pure.pure a : Attempt σ ε α) s = (.ok a, s) := rfl

@[simp] theorem fail_run (fault : ε) (s : σ) :
    (fail fault : Attempt σ ε α) s = (.error fault, s) := rfl

theorem bind_run_ok {r : Attempt σ ε α} {f : α → Attempt σ ε β} {s t : σ} {a : α}
    (h : r s = (.ok a, t)) : (r >>= f) s = f a t := by
  show bind r f s = f a t
  simp [bind, h]

theorem bind_run_error {r : Attempt σ ε α} {f : α → Attempt σ ε β} {s t : σ} {fault : ε}
    (h : r s = (.error fault, t)) : (r >>= f) s = (.error fault, t) := by
  show bind r f s = (.error fault, t)
  simp [bind, h]

/-- A step for each item, in order. -/
def each (f : α → Attempt σ ε Unit) : List α → Attempt σ ε Unit
  | [] => pure ()
  | a :: rest => bind (f a) fun _ => each f rest

end Attempt

end GraphStore
