import GraphStore.Proofs.Codec.RoundTrip

/-!
Values under a key that declares their type. What a key refuses it refuses before a byte is put down; what it
takes it reads back, up to what the form keeps, and stops where the writing stopped. Writing is also said step
by step, into a buffer that keeps what was put into it before a fault.
-/
namespace GraphStore

open Reading

/-- Writing behind the bytes of a buffer. -/
abbrev Writing : Type := Attempt Bytes Fault Unit

def Writing.put (bytes : Bytes) : Writing := Attempt.modify (· ++ bytes)

@[simp] theorem Writing.put_run (bytes buffer : Bytes) : put bytes buffer = (.ok (), buffer ++ bytes) := rfl

namespace Compact

/-- The length is looked at before any of the bytes are put. -/
def put (v : Value) : Writing :=
  if fits v then Writing.put (write v) else Attempt.fail (.encoding .payloadTooLong)

def putTagged (v : Value) : Writing := do
  Writing.put [tag v]
  put v

theorem putTagged_run (v : Value) (buffer : Bytes) : putTagged v buffer = put v (buffer ++ [tag v]) := rfl

end Compact

namespace Attribute

variable {declared : DataType} {mode : AttributeMode} {v : Value} {bytes : Bytes}

theorem accepts_of_write (h : write declared mode v = .ok bytes) : declared.accepts v = true := by
  simp only [write] at h
  split at h
  · simp at h
  · next accepted => simpa using accepted

/-- In the ordered form a key stores values of its own type only. -/
theorem write_ordered (h : write declared .ordered v = .ok bytes) :
    declared = v.dataType ∧ bytes = Ordered.write v := by
  have accepted := accepts_of_write h
  simp only [write, accepted, Bool.not_true, Bool.false_eq_true, if_false] at h
  split at h
  · simp at h
  · next typed =>
    exact ⟨((DataType.accepts_iff v typed).1 accepted).symm, (Except.ok.inj h).symm⟩

theorem write_compact (h : write declared .compact v = .ok bytes) :
    Compact.fits v = true ∧
      bytes = if declared = .generic then Compact.writeTagged v else Compact.write v := by
  have accepted := accepts_of_write h
  simp only [write, accepted, Bool.not_true, Bool.false_eq_true, if_false] at h
  split at h
  · simp at h
  · next short => exact ⟨by simpa using short, (Except.ok.inj h).symm⟩

theorem write_compact_ne_nil (h : write declared .compact v = .ok bytes) : bytes ≠ [] := by
  obtain ⟨-, rfl⟩ := write_compact h
  split
  · exact nofun
  · exact Compact.write_ne_nil v

/-- What a key stores is read as a value of its type. -/
theorem read_write (h : write declared mode v = .ok bytes) (rest : Bytes) :
    read declared mode (bytes ++ rest) = (v.told mode, rest) := by
  cases mode with
  | ordered =>
    obtain ⟨rfl, rfl⟩ := write_ordered h
    exact Ordered.read_write v rest
  | compact =>
    obtain ⟨short, rfl⟩ := write_compact h
    by_cases generic : declared = .generic
    · simp only [read, if_pos generic]
      exact Compact.readTagged_writeTagged short rest
    · obtain rfl := (DataType.accepts_iff v generic).1 (accepts_of_write h)
      simp only [read, if_neg generic]
      exact Compact.read_write short rest

/-- What a key stores it reads back, up to what the form keeps. -/
theorem takes_write (h : write declared mode v = .ok bytes) (near : v.isBeyond = false) :
    Takes (read declared mode) bytes (v.kept mode) := fun rest => by
  rw [read_write h, Value.told_of_near near]

/-- Stored values are told apart by what is kept of them, and each tells where it ends. -/
theorem write_split {w : Value} {bytes' x y : Bytes} (left : write declared mode v = .ok bytes)
    (right : write declared mode w = .ok bytes') (same : bytes ++ x = bytes' ++ y) :
    v.kept mode = w.kept mode ∧ x = y := by
  have read := read_write left x
  rw [same, read_write right y] at read
  obtain ⟨told, rest⟩ := Prod.mk.inj read
  exact ⟨Value.kept_of_told_eq told.symm, rest.symm⟩

/-- No stored value goes on from another under its key. -/
theorem eq_of_start {w : Value} {bytes' : Bytes} (left : write declared mode v = .ok bytes)
    (right : write declared mode w = .ok bytes') (start : bytes <+: bytes') : bytes = bytes' := by
  obtain ⟨tail, onward⟩ := start
  obtain ⟨-, rfl⟩ := write_split left right (onward.trans (List.append_nil bytes').symm)
  rwa [List.append_nil] at onward

theorem compares_write {w : Value} {bytes' : Bytes} (left : write declared mode v = .ok bytes)
    (right : write declared mode w = .ok bytes') : Bytes.Compares bytes bytes' (compare bytes bytes') :=
  .of_apart (eq_of_start left right) (eq_of_start right left)

/-- Values of which the compact form keeps the same are equal, or dates with the same milliseconds. -/
theorem eq_or_dates_of_kept_eq {w : Value} (same : v.kept .compact = w.kept .compact) :
    v = w ∨ ∃ s t, v = .date s ∧ w = .date t ∧ s.millis = t.millis := by
  cases v with
  | date s =>
    cases w with
    | date t => exact .inr ⟨s, t, rfl, rfl, Timestamp.settled_eq_iff.1 (Value.date.inj same)⟩
    | _ => cases same
  | _ =>
    cases w with
    | date t => cases same
    | _ => exact .inl same

/-- Values of which the compact form keeps the same are stored alike. -/
theorem write_of_kept_eq {w : Value} (same : v.kept .compact = w.kept .compact)
    (h : write declared .compact v = .ok bytes) : write declared .compact w = .ok bytes := by
  obtain rfl | ⟨s, t, rfl, rfl, millis⟩ := eq_or_dates_of_kept_eq same
  · exact h
  · have form : Compact.write (.date s) = Compact.write (.date t) := by
      rw [Compact.write, Compact.write, Ordered.millis, Ordered.millis, millis]
    have accepted := accepts_of_write h
    have typed : declared.accepts (.date t) = declared.accepts (.date s) := rfl
    obtain ⟨-, rfl⟩ := write_compact h
    rw [write, typed, accepted, Compact.writeTagged, Compact.writeTagged, form]
    rfl

theorem write_ordered_exists (typed : declared ≠ .generic) (accepted : declared.accepts v = true) :
    ∃ bytes, write declared .ordered v = .ok bytes := by
  simp [write, typed, accepted]

theorem write_compact_exists_iff : (∃ bytes, write declared .compact v = .ok bytes) ↔
    declared.accepts v = true ∧ Compact.fits v = true := by
  constructor
  · rintro ⟨bytes, written⟩
    exact ⟨accepts_of_write written, (write_compact written).1⟩
  · rintro ⟨accepted, fits⟩
    simp [write, accepted, fits]

theorem write_exists (accepted : declared.accepts v = true) (apart : ¬ (declared = .generic ∧ mode = .ordered))
    (short : Compact.fits v = true) : ∃ bytes, write declared mode v = .ok bytes := by
  cases mode with
  | ordered => exact write_ordered_exists (fun generic => apart ⟨generic, rfl⟩) accepted
  | compact => exact write_compact_exists_iff.2 ⟨accepted, short⟩

/-- Why a value with room for its length is not written. -/
theorem write_error {fault : Fault} (short : Compact.fits v = true) (h : write declared mode v = .error fault) :
    (declared.accepts v = false ∧ fault = .mismatch declared v) ∨
      (declared.accepts v = true ∧ declared = .generic ∧ mode = .ordered) ∧
        fault = .invariant .genericKeyOrdered := by
  cases accepted : declared.accepts v with
  | false =>
    simp only [write, accepted, Bool.not_false, if_true, Except.error.injEq] at h
    exact .inl ⟨rfl, h.symm⟩
  | true =>
    by_cases apart : declared = .generic ∧ mode = .ordered
    · obtain ⟨rfl, rfl⟩ := apart
      exact .inr ⟨⟨rfl, rfl, rfl⟩, (Except.error.inj h).symm⟩
    · obtain ⟨bytes, written⟩ := write_exists accepted apart short
      rw [written] at h
      cases h

/-- The type is looked at before the form, and both before anything is put. -/
def put (declared : DataType) (mode : AttributeMode) (v : Value) : Writing :=
  if !declared.accepts v then Attempt.fail (.mismatch declared v)
  else
    match mode with
    | .ordered =>
      if declared = .generic then Attempt.fail (.invariant .genericKeyOrdered)
      else Writing.put (Ordered.write v)
    | .compact => if declared = .generic then Compact.putTagged v else Compact.put v

/-- Step by step it comes to the same. Only the tag of a value that is too long is left behind. -/
theorem put_run (declared : DataType) (mode : AttributeMode) (v : Value) (buffer : Bytes) :
    put declared mode v buffer =
      match write declared mode v with
      | .ok bytes => (.ok (), buffer ++ bytes)
      | .error fault =>
        (.error fault, if fault = .encoding .payloadTooLong ∧ declared = .generic then
          buffer ++ [Compact.tag v] else buffer) := by
  cases accepted : declared.accepts v with
  | false => simp [put, write, accepted, Fault.mismatch]
  | true =>
    cases mode with
    | ordered =>
      obtain rfl | typed := eq_or_ne declared .generic
      · simp [put, write, DataType.generic_accepts]
      · simp [put, write, accepted, typed]
    | compact =>
      -- Under a key of all values the tag is down before the length is looked at.
      obtain rfl | typed := eq_or_ne declared .generic <;> cases short : Compact.fits v
      · simp [put, write, DataType.generic_accepts, Compact.putTagged_run, Compact.put, short]
      · simp [put, write, DataType.generic_accepts, Compact.putTagged_run, Compact.put, Compact.writeTagged, short]
      · simp [put, write, accepted, typed, Compact.put, short]
      · simp [put, write, accepted, typed, Compact.put, short]

variable (declared mode)

end Attribute

end GraphStore
