import GraphStore.Bytes.Reading
import GraphStore.Proofs.Attempt
import GraphStore.Proofs.Bytes.Forms
import GraphStore.Proofs.Text.Utf8

/-!
Readers that take back what was written. A reader takes some bytes for a value if it gives the value and
leaves whatever follows them; readers one after another take bytes one after another.
-/
namespace GraphStore.Reading

variable {α β γ : Type}

/-- The reader takes just these bytes, whatever follows, and gives this value. -/
def Takes (r : Reading α) (bytes : Bytes) (a : α) : Prop :=
  ∀ rest, r (bytes ++ rest) = (.ok a, rest)

namespace Takes

theorem pure (a : α) : Takes (Pure.pure a) [] a := fun _ => rfl

theorem bind {r : Reading α} {f : α → Reading β} {x y : Bytes} {a : α} {b : β}
    (h : Takes r x a) (h' : Takes (f a) y b) : Takes (r >>= f) (x ++ y) b := by
  intro rest
  rw [List.append_assoc, Attempt.bind_run_ok (h (y ++ rest))]
  exact h' rest

/-- Something is made of what was read. -/
theorem map {r : Reading α} {x : Bytes} {a : α} (h : Takes r x a) (f : α → β) :
    Takes (do return f (← r)) x (f a) := by
  have taken := h.bind (f := fun a => Pure.pure (f a)) (Takes.pure (f a))
  rwa [List.append_nil] at taken

theorem lift {e : Except Fault α} {a : α} (h : e = .ok a) : Takes (Attempt.lift e) [] a :=
  Attempt.lift_run h

theorem bind_lift {e : Except Fault α} {f : α → Reading β} {x : Bytes} {a : α} {b : β}
    (h : e = .ok a) (h' : Takes (f a) x b) : Takes (Attempt.lift e >>= f) x b := by
  have taken := (lift h).bind h'
  rwa [List.nil_append] at taken

/-- What was read is checked, and something is made of it if it passes. Either way the reader stops there. -/
theorem judged {r : Reading α} {x : Bytes} {a : α} (h : Takes r x a) (g : α → Except Fault β) (f : β → γ)
    (rest : Bytes) : (do return f (← Attempt.lift (g (← r))) : Reading γ) (x ++ rest) = ((g a).map f, rest) := by
  rw [Attempt.bind_run_ok (h rest)]
  cases passed : g a with
  | ok b => exact Attempt.bind_run_ok (Attempt.lift_run rfl rest)
  | error fault => rfl

theorem check {r : Reading α} {x : Bytes} {a : α} {b : β} {g : α → Except Fault β}
    (h : Takes r x a) (passed : g a = .ok b) (f : β → γ) :
    Takes (do return f (← Attempt.lift (g (← r)))) x (f b) := by
  intro rest
  rw [h.judged, passed]
  rfl

/-- A reader stops at one place, so no bytes that it takes go on from others. -/
theorem eq_of_prefix {r : Reading α} {x y : Bytes} {a b : α} (left : Takes r x a)
    (right : Takes r y b) (start : x <+: y) : x = y := by
  obtain ⟨tail, rfl⟩ := start
  have whole := right []
  rw [List.append_nil, left tail] at whole
  rw [(Prod.mk.inj whole).2, List.append_nil]

theorem compares {r : Reading α} {x y : Bytes} {a b : α} (left : Takes r x a)
    (right : Takes r y b) : Bytes.Compares x y (compare x y) :=
  .of_apart (left.eq_of_prefix right) (right.eq_of_prefix left)

end Takes

theorem remaining_run (bytes : Bytes) : remaining bytes = (.ok bytes, bytes) := rfl

theorem takes_byte (b : UInt8) : Takes byte [b] b := fun _ => rfl

theorem takes_take (x : Bytes) : Takes (take x.length) x x := by
  intro rest
  simp [take]

theorem takes_number {width n : Nat} (h : n < Nat.pow 256 width) :
    Takes (number width) (bigEndian width n) n := by
  have taken := (takes_take (bigEndian width n)).map ofBigEndian
  rw [bigEndian_length, ofBigEndian_bigEndian, Nat.mod_eq_of_lt h] at taken
  exact taken

theorem takes_word (w : UInt64) : Takes word (bigEndian 8 w.toNat) w := by
  have taken := (takes_number (show w.toNat < Nat.pow 256 8 from w.toNat_lt)).map UInt64.ofNat
  rwa [UInt64.ofNat_toNat] at taken

theorem takes_lengthPrefixed {x : Bytes} (h : x.length < 0x100000000) :
    Takes lengthPrefixed (Bytes.lengthPrefixed x) x :=
  (takes_number (show x.length < Nat.pow 256 4 from h)).bind (takes_take x)

theorem takes_orderedVarint (w : UInt64) : Takes orderedVarint (Bytes.orderedVarint w) w := by
  have most := Bytes.significantBytes_le w.toNat
  have least := Bytes.one_le_significantBytes w.toNat
  have digits : Takes (number (Bytes.significantBytes w.toNat))
      (bigEndian (Bytes.significantBytes w.toNat) w.toNat) w.toNat :=
    takes_number (Bytes.lt_of_significantBytes w.toNat_lt)
  refine (takes_byte (.ofNat (Bytes.significantBytes w.toNat))).bind ?_
  rw [Bytes.toNat_significantBytes, if_pos ⟨least, most⟩]
  simpa using digits.map UInt64.ofNat

theorem takes_escaped (x : Bytes) : Takes escaped (Bytes.escaped x) x := escaped_escaped x

theorem decodeText_encode (s : String) : decodeText (Utf8.encode s) = .ok s := by
  rw [decodeText, Utf8.decode_encode]

theorem takes_escapedText (s : String) : Takes escapedText (Bytes.escapedText s) s := by
  have taken := (takes_escaped (Utf8.encode s)).bind (f := fun x => Attempt.lift (decodeText x))
    (Takes.lift (decodeText_encode s))
  rwa [List.append_nil] at taken

end GraphStore.Reading

namespace GraphStore.Bytes

theorem escapedText_append_ne_nil (s : String) (rest : Bytes) : escapedText s ++ rest ≠ [] := by
  rw [escapedText]
  cases Utf8.encode s with
  | nil => exact List.cons_ne_nil _ _
  | cons b x => rw [escaped]; split <;> exact List.cons_ne_nil _ _

theorem escapedText_append_inj {s t : String} {x y : Bytes}
    (h : escapedText s ++ x = escapedText t ++ y) : s = t ∧ x = y := by
  have read := Reading.takes_escapedText s x
  rw [h, Reading.takes_escapedText t y] at read
  obtain ⟨same, rest⟩ := Prod.mk.inj read
  exact ⟨(Except.ok.inj same).symm, rest.symm⟩

/-- Texts one after another are told apart, however many there are. -/
theorem flatMap_escapedText_inj {l l' : List String}
    (h : l.flatMap escapedText = l'.flatMap escapedText) : l = l' := by
  induction l generalizing l' with
  | nil =>
    cases l' with
    | nil => rfl
    | cons s rest => exact absurd h.symm (escapedText_append_ne_nil s _)
  | cons s rest ih =>
    cases l' with
    | nil => exact absurd h (escapedText_append_ne_nil s _)
    | cons t others =>
      rw [List.flatMap_cons, List.flatMap_cons] at h
      obtain ⟨rfl, later⟩ := escapedText_append_inj h
      rw [ih later]

end GraphStore.Bytes
