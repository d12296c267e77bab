import GraphStore.Attempt
import GraphStore.Index.Batch

/-!
Bulk writing, call by call. A producer hands updates to a batch and flushes it now and then, through writers
that take a batch or fail as they like. What has landed and what is pending always make up what was pushed, in
order: a batch that fails stays as it is, and one that lands leaves the pending updates in the same call.
-/
namespace GraphStore

/-- A batch that a writer was called with, and the answer. -/
structure WriterCall where
  updates : List IndexUpdate
  answer : Except BackendFault Unit

/-- What a writer took; of a batch that fails it takes nothing. -/
def WriterCall.taken (c : WriterCall) : List IndexUpdate :=
  match c.answer with
  | .ok () => c.updates
  | .error _ => []

/-- A writer's answer may depend on all that was written before. -/
abbrev Writer := List WriterCall → List IndexUpdate → Except BackendFault Unit

/-- A call of the writer, which is put down. -/
def Writer.write (w : Writer) (updates : List IndexUpdate) : Attempt (List WriterCall) BackendFault Unit :=
  fun calls => (w calls updates, calls ++ [⟨updates, w calls updates⟩])

namespace Batch

/-- A flush through a writer that has a state of its own, which tells of every call. -/
def flushThrough {σ : Type} (write : List IndexUpdate → Attempt σ BackendFault Unit) :
    Attempt (Batch × σ) IndexFault Nat := fun (b, s) =>
  if b.pending.isEmpty then (.ok 0, b, s)
  else
    match write b.pending s with
    | (.ok (), s') => (.ok b.pending.length, { b with pending := [] }, s')
    | (.error fault, s') => (.error (.backend fault), b, s')

/-- The writer's state has no part in a flush but through its answer. -/
theorem flushThrough_run {σ : Type} (write : List IndexUpdate → Attempt σ BackendFault Unit) (b : Batch) (s : σ) :
    flushThrough write (b, s) = ((b.flush fun us => (write us s).1).1, (b.flush fun us => (write us s).1).2,
      if b.pending.isEmpty then s else (write b.pending s).2) := by
  rw [flushThrough, flush, handedOver]
  cases empty : b.pending.isEmpty with
  | true => rfl
  | false =>
    cases wrote : write b.pending s with
    | mk answer s' => cases answer <;> simp [wrote]

variable {b : Batch} {write : List IndexUpdate → Except BackendFault Unit}

/-- A flush fails with its writer, and the batch is as it was. -/
theorem flush_of_refused {cause : BackendFault} (filled : b.pending ≠ [])
    (refused : write b.pending = .error cause) : b.flush write = (.error (.backend cause), b) := by
  have pending : b.pending.isEmpty = false := by simpa using filled
  rw [flush, handedOver, pending]
  simp only [Bool.false_eq_true, if_false, refused]

/-- A flush that does not fail leaves nothing pending. -/
theorem flush_of_taken (taken : b.pending = [] ∨ write b.pending = .ok ()) :
    b.flush write = (.ok b.pending.length, { b with pending := [] }) := by
  by_cases empty : b.pending = []
  · obtain ⟨settings, pending⟩ := b
    obtain rfl : pending = [] := empty
    rfl
  · have pending : b.pending.isEmpty = false := by simpa using empty
    rw [flush, handedOver, pending]
    simp only [Bool.false_eq_true, if_false, taken.resolve_left empty]

theorem shouldFlush_eq_false_iff (b : Batch) (freePercent : Nat) :
    b.shouldFlush freePercent = false ↔ b.pending = [] ∨
      b.pending.length < b.settings.batchSize ∧ b.settings.minFreeMemoryPercent < freePercent := by
  rw [shouldFlush, Bool.and_eq_false_iff, Bool.not_eq_false', List.isEmpty_iff, Bool.or_eq_false_iff]
  simp only [decide_eq_false_iff_not, Nat.not_le]

end Batch

/-- What a producer may do with a batch. -/
inductive BatchCall where
  | push (u : IndexUpdate)
  | extend (us : List IndexUpdate)
  | flush (w : Writer)

/-- A batch in use, and the calls of its writers so far. -/
structure BulkWork where
  batch : Batch
  calls : List WriterCall

namespace BatchCall

def run : BatchCall → BulkWork → BulkWork
  | push u, s => { s with batch := s.batch.push u }
  | extend us, s => { s with batch := s.batch.extend us }
  | flush w, s => ⟨(Batch.flushThrough w.write (s.batch, s.calls)).2.1,
      (Batch.flushThrough w.write (s.batch, s.calls)).2.2⟩

/-- A writer is called with what is pending, unless that is nothing. -/
theorem run_flush (w : Writer) (s : BulkWork) : (flush w).run s = ⟨(s.batch.flush (w s.calls)).2,
    if s.batch.pending.isEmpty then s.calls
    else s.calls ++ [⟨s.batch.pending, w s.calls s.batch.pending⟩]⟩ := by
  rw [run, Batch.flushThrough_run]
  rfl

def pushed : BatchCall → List IndexUpdate
  | push u => [u]
  | extend us => us
  | flush _ => []

end BatchCall

namespace BulkWork

/-- The work after some calls, whatever came of the flushes. -/
def after (settings : BatchSettings) (calls : List BatchCall) : BulkWork :=
  calls.foldl (fun s call => call.run s) ⟨.new settings, []⟩

/-- All that was written, batch after batch. -/
def landed (s : BulkWork) : List IndexUpdate := s.calls.flatMap (·.taken)

/-- What landed and what is pending make up what was pushed, and no writer was called for nothing. -/
structure Keeps (settings : BatchSettings) (pushed : List IndexUpdate) (s : BulkWork) : Prop where
  conserved : s.landed ++ s.batch.pending = pushed
  filled : ∀ call ∈ s.calls, call.updates ≠ []
  settings : s.batch.settings = settings

variable {settings : BatchSettings} {pushed : List IndexUpdate} {s : BulkWork}

theorem Keeps.flush (keeps : s.Keeps settings pushed) (w : Writer) :
    ((BatchCall.flush w).run s).Keeps settings pushed := by
  rw [BatchCall.run_flush]
  by_cases empty : s.batch.pending = []
  · rw [if_pos (List.isEmpty_iff.2 empty), Batch.flush_of_taken (.inl empty)]
    refine ⟨?_, keeps.filled, keeps.settings⟩
    rw [← keeps.conserved, empty]
    rfl
  · rw [if_neg (by simpa using empty)]
    have filled : ∀ call ∈ s.calls ++ [⟨s.batch.pending, w s.calls s.batch.pending⟩], call.updates ≠ [] := by
      intro call there
      rcases List.mem_append.1 there with old | new
      · exact keeps.filled call old
      · rw [List.mem_singleton.1 new]
        exact empty
    have called (batch : Batch) (call : WriterCall) :
        (⟨batch, s.calls ++ [call]⟩ : BulkWork).landed = s.landed ++ call.taken := by
      simp [landed]
    cases answer : w s.calls s.batch.pending with
    | ok _ =>
      rw [Batch.flush_of_taken (.inr answer)]
      refine ⟨?_, answer ▸ filled, keeps.settings⟩
      rw [called, ← keeps.conserved]
      exact List.append_nil _
    | error cause =>
      rw [Batch.flush_of_refused empty answer]
      refine ⟨?_, answer ▸ filled, keeps.settings⟩
      rw [called, ← keeps.conserved]
      exact congrArg (· ++ _) (List.append_nil _)

/-- Every call keeps the account. -/
theorem Keeps.step (keeps : s.Keeps settings pushed) (call : BatchCall) :
    (call.run s).Keeps settings (pushed ++ call.pushed) := by
  cases call with
  | push u =>
    refine ⟨?_, keeps.filled, keeps.settings⟩
    rw [← keeps.conserved, List.append_assoc]
    rfl
  | extend us =>
    refine ⟨?_, keeps.filled, keeps.settings⟩
    rw [← keeps.conserved, List.append_assoc]
    rfl
  | flush w =>
    rw [BatchCall.pushed, List.append_nil]
    exact keeps.flush w

theorem keeps_after (settings : BatchSettings) (calls : List BatchCall) :
    (after settings calls).Keeps settings (calls.flatMap (·.pushed)) := by
  suffices run : ∀ (pushed : List IndexUpdate) (s : BulkWork), s.Keeps settings pushed →
      (calls.foldl (fun s call => call.run s) s).Keeps settings (pushed ++ calls.flatMap (·.pushed)) from
    run [] _ ⟨rfl, nofun, rfl⟩
  induction calls with
  | nil => simp
  | cons call rest ih =>
    intro pushed s keeps
    have there := ih _ _ (keeps.step call)
    rwa [List.append_assoc] at there

/-- At every point of bulk writing, what has landed and what is pending are what was pushed, in order. A flush
fails with its writer and leaves the pending updates, and else it writes all of them. A producer need not flush
as long as nothing is pending, or the batch is small and memory is free. -/
theorem after_conserves (settings : BatchSettings) (calls : List BatchCall) :
    (after settings calls).landed ++ (after settings calls).batch.pending = calls.flatMap (·.pushed) ∧
      (∀ call ∈ (after settings calls).calls, call.updates ≠ []) ∧
      (∀ write cause, (after settings calls).batch.pending ≠ [] →
        write (after settings calls).batch.pending = .error cause →
        (after settings calls).batch.flush write = (.error (.backend cause), (after settings calls).batch)) ∧
      (∀ write, (after settings calls).batch.pending = [] ∨
        write (after settings calls).batch.pending = .ok () →
        (after settings calls).batch.flush write = (.ok (after settings calls).batch.pending.length,
          { (after settings calls).batch with pending := [] })) ∧
      ∀ freePercent, (after settings calls).batch.shouldFlush freePercent = false ↔
        (after settings calls).batch.pending = [] ∨
          (after settings calls).batch.pending.length < settings.batchSize ∧
            settings.minFreeMemoryPercent < freePercent := by
  have keeps := keeps_after settings calls
  refine ⟨keeps.conserved, keeps.filled, fun write cause filled refused => Batch.flush_of_refused filled refused,
    fun write taken => Batch.flush_of_taken taken, fun freePercent => ?_⟩
  rw [Batch.shouldFlush_eq_false_iff, keeps.settings]

/-- An entry of the year 2000, 2001 and so on. -/
def yearEntry (year : UInt8) : IndexUpdate :=
  .composite ⟨.ofNat 20, .add, [year], ⟨[0, year], 1⟩, .vertex "ann", none⟩

def busy : BackendFault := ⟨true, "bulk rejected"⟩

/-- Three updates, the first two of which are written only when they are tried again. -/
def retried : List BatchCall :=
  [.push (yearEntry 0), .extend [yearEntry 1], .flush fun _ _ => .error busy,
    .flush fun calls _ => if calls.length = 1 then .ok () else .error busy, .push (yearEntry 2)]

/-- The first flush failed and the second one wrote. Of the third update, another failure leaves it pending and
a success does not. -/
theorem after_conserves_retried :
    (after ⟨1000, 10⟩ retried).landed = [yearEntry 0, yearEntry 1] ∧
      (after ⟨1000, 10⟩ retried).batch.pending = [yearEntry 2] ∧
      (after ⟨1000, 10⟩ retried).batch.flush (fun _ => .error busy) =
        (.error (.backend busy), (after ⟨1000, 10⟩ retried).batch) ∧
      (after ⟨1000, 10⟩ retried).batch.flush (fun _ => .ok ()) = (.ok 1, ⟨⟨1000, 10⟩, []⟩) ∧
      (after ⟨1000, 10⟩ retried).batch.shouldFlush 11 = false := by
  obtain ⟨-, -, refused, taken, rests⟩ := after_conserves ⟨1000, 10⟩ retried
  exact ⟨rfl, rfl, refused (fun _ => .error busy) busy nofun rfl, taken _ (.inr rfl),
    (rests 11).2 (.inr ⟨by decide, by decide⟩)⟩

end BulkWork

end GraphStore
