import GraphStore.Index.Fault
import GraphStore.Index.Settings
import GraphStore.Index.Update

/-!
Updates waiting to be written in bulk. A batch lands whole or stays whole: if the writer fails, nothing
of it is lost and nothing is taken as written.
-/
namespace GraphStore

structure Batch where
  settings : BatchSettings
  pending : List IndexUpdate
  deriving Repr

namespace Batch

def new (settings : BatchSettings) : Batch := ⟨settings, []⟩

def push (b : Batch) (u : IndexUpdate) : Batch := { b with pending := b.pending ++ [u] }

def extend (b : Batch) (us : List IndexUpdate) : Batch := { b with pending := b.pending ++ us }

/-- Whether it is time to write: the batch is full, or free memory has run low. -/
def shouldFlush (b : Batch) (freePercent : Nat) : Bool :=
  !b.pending.isEmpty &&
    (b.settings.batchSize ≤ b.pending.length || freePercent ≤ b.settings.minFreeMemoryPercent)

/-- What the writer is handed; an empty batch is not handed over. -/
def handedOver (b : Batch) : Option (List IndexUpdate) :=
  if b.pending.isEmpty then none else some b.pending

/-- Write the batch; the number of updates written, and what is left. -/
def flush (b : Batch) (write : List IndexUpdate → Except BackendFault Unit) :
    Except IndexFault Nat × Batch :=
  match b.handedOver with
  | none => (.ok 0, b)
  | some updates =>
    match write updates with
    | .ok () => (.ok updates.length, { b with pending := [] })
    | .error fault => (.error (.backend fault), b)

end Batch

end GraphStore
