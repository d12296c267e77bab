import GraphStore.Proofs.Codec.RoundTrip

/-!
Bytes that break off. The forms that stand in keys tell where they end, so a reader that is given only the
start of one does not take it for something else: it runs out of bytes.
-/
namespace GraphStore

/-- The faults of a reader that has come to the end of its bytes. -/
def EncodingFault.isShortage : EncodingFault → Bool
  | endOfInput => true
  | missingTerminator => true
  | _ => false

namespace Reading

variable {α β : Type}

/-- Given a start of the bytes that is not all of them, the reader runs out. -/
def RunsOut (r : Reading α) (x : Bytes) : Prop :=
  ∀ front, front <+: x → front ≠ x →
    ∃ cause rest, cause.isShortage = true ∧ r front = (.error (.encoding cause), rest)

namespace RunsOut

theorem nil (r : Reading α) : RunsOut r [] := by
  intro front start apart
  exact absurd (List.prefix_nil.1 start) apart

/-- What is done with a value does not matter where there is none. -/
theorem followed {r : Reading α} {x : Bytes} (short : RunsOut r x) (f : α → Reading β) :
    RunsOut (r >>= f) x := by
  intro front start apart
  obtain ⟨cause, rest, kind, failed⟩ := short front start apart
  exact ⟨cause, rest, kind, Attempt.bind_run_error failed⟩

/-- Bytes for two readers break off in those of the first or in those of the second. -/
theorem bind {r : Reading α} {f : α → Reading β} {x y : Bytes} {a : α} (taken : Takes r x a)
    (first : RunsOut r x) (second : RunsOut (f a) y) : RunsOut (r >>= f) (x ++ y) := by
  intro front start apart
  by_cases whole : x <+: front
  · obtain ⟨more, rfl⟩ := whole
    have within : more <+: y := (List.prefix_append_right_inj x).1 start
    have less : more ≠ y := fun same => apart (same ▸ rfl)
    rw [Attempt.bind_run_ok (taken more)]
    exact second more within less
  · have within : front <+: x :=
      (List.prefix_or_prefix_of_prefix start (List.prefix_append x y)).resolve_right whole
    have less : front ≠ x := fun same => whole (same ▸ List.prefix_rfl)
    exact first.followed f front within less

theorem bind_lift {e : Except Fault α} {f : α → Reading β} {x : Bytes} {a : α} (h : e = .ok a)
    (short : RunsOut (f a) x) : RunsOut (Attempt.lift e >>= f) x :=
  bind (.lift h) (nil _) short

end RunsOut

theorem runsOut_byte (b : UInt8) : RunsOut byte [b] := by
  intro front start apart
  cases front with
  | nil => exact ⟨.endOfInput, [], rfl, rfl⟩
  | cons c rest =>
    obtain ⟨rfl, more⟩ := List.cons_prefix_cons.1 start
    exact absurd (by rw [List.prefix_nil.1 more]) apart

theorem runsOut_take (x : Bytes) : RunsOut (take x.length) x := by
  intro front start apart
  have less : front.length < x.length :=
    Nat.lt_of_le_of_ne start.length_le fun same => apart (start.eq_of_length same)
  exact ⟨.endOfInput, front, rfl, if_neg (Nat.not_le.2 less)⟩

theorem runsOut_word (w : UInt64) : RunsOut word (bigEndian 8 w.toNat) := by
  have short := runsOut_take (bigEndian 8 w.toNat)
  rw [bigEndian_length] at short
  exact (short.followed _).followed _

theorem runsOut_escaped (x : Bytes) : RunsOut escaped (Bytes.escaped x) := by
  induction x with
  | nil =>
    intro front start apart
    rw [Bytes.escaped] at start apart
    obtain rfl | ⟨front, rfl, more⟩ := List.prefix_cons_iff.1 start
    · exact ⟨.missingTerminator, [], rfl, rfl⟩
    obtain rfl | ⟨rest, rfl, within⟩ := List.prefix_cons_iff.1 more
    · exact ⟨.endOfInput, [], rfl, rfl⟩
    exact absurd (by rw [List.prefix_nil.1 within]) apart
  | cons a x ih =>
    intro front start apart
    by_cases zero : a = 0
    · rw [Bytes.escaped, if_pos zero] at start apart
      obtain rfl | ⟨front, rfl, more⟩ := List.prefix_cons_iff.1 start
      · exact ⟨.missingTerminator, [], rfl, rfl⟩
      obtain rfl | ⟨rest, rfl, within⟩ := List.prefix_cons_iff.1 more
      · exact ⟨.endOfInput, [], rfl, rfl⟩
      obtain ⟨cause, left, kind, failed⟩ := ih rest within fun same => apart (same ▸ rfl)
      exact ⟨cause, left, kind, by simp [escaped, failed]⟩
    · rw [Bytes.escaped, if_neg zero] at start apart
      obtain rfl | ⟨front, rfl, more⟩ := List.prefix_cons_iff.1 start
      · exact ⟨.missingTerminator, [], rfl, rfl⟩
      obtain ⟨cause, left, kind, failed⟩ := ih front more fun same => apart (same ▸ rfl)
      cases front with
      | nil => exact ⟨.missingTerminator, [], rfl, by simp [escaped, zero]⟩
      | cons c rest => exact ⟨cause, left, kind, by simp [escaped, zero, failed]⟩

theorem runsOut_escapedText (s : String) : RunsOut escapedText (Bytes.escapedText s) :=
  (runsOut_escaped (Utf8.encode s)).followed _

end Reading

open Reading

namespace Ordered

theorem runsOut_int (i : Int64) : RunsOut readInt (int i) := (runsOut_word _).followed _

theorem runsOut_float (x : Binary64) : RunsOut readFloat (float x) := (runsOut_word _).followed _

theorem runsOut_uuid (u : Uuid) : RunsOut readUuid u.bytes := by
  intro front start apart
  have short := runsOut_take u.bytes
  rw [u.length_eq] at short
  obtain ⟨cause, rest, kind, failed⟩ := short front start apart
  exact ⟨cause, rest, kind, by simp only [readUuid, failed]⟩

theorem runsOut_write (v : Value) : RunsOut (read v.dataType) (write v) := by
  cases v with
  | bool b => exact (runsOut_byte _).followed _
  | int i => exact (runsOut_int i).followed _
  | float x => exact (runsOut_float x).followed _
  | string s => exact (runsOut_escapedText s).followed _
  | date t => exact (runsOut_int (millis t)).followed _
  | uuid u => exact (runsOut_uuid u).followed _
  | geo lat lon => exact .bind (takes_float lat) (runsOut_float lat) ((runsOut_float lon).followed _)
  | bytes b => exact (runsOut_escaped b).followed _

end Ordered

end GraphStore
