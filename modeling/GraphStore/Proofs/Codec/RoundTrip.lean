import GraphStore.Codec.Attribute
import GraphStore.Proofs.Bytes.Reading
import GraphStore.Proofs.Calendar.Timestamp
import GraphStore.Proofs.Codec.Order

/-!
What the forms of a value keep of it, and that their readers take just that back. With its order, the ordered
form so puts the values of each type among the byte strings. Dates are kept as their milliseconds: one in a leap
second comes back as one in the second after it, and after the last second there is none that could come back.
-/
namespace GraphStore

/-- What is not a number becomes the one such number that the ordered form knows. -/
def Binary64.settled (x : Binary64) : Binary64 := if x.isNaN then Ordered.canonicalNaN else x

namespace Value

/-- A date becomes that of its milliseconds. In the ordered form, all that is not a number is one. -/
def kept : AttributeMode → Value → Value
  | _, date t => date t.settled
  | .ordered, float x => float x.settled
  | .ordered, geo lat lon => geo lat.settled lon.settled
  | _, v => v

/-- A date whose milliseconds lie beyond those of all dates. -/
def isBeyond : Value → Bool
  | date t => t.isBeyond
  | _ => false

/-- What the reader of a form makes of a value. -/
def told (mode : AttributeMode) : Value → Except Fault Value
  | date t => (Ordered.dateOfMillis (Ordered.millis t)).map date
  | v => .ok (v.kept mode)

end Value

open Reading

namespace Ordered

/-- The top bit, turned twice, is what it was. -/
theorem turnTop_twice (w : UInt64) : w ^^^ 0x8000000000000000 ^^^ 0x8000000000000000 = w := by
  rw [UInt64.xor_assoc, UInt64.xor_self, UInt64.xor_zero]

theorem takes_int (i : Int64) : Takes readInt (int i) i := by
  have taken := (takes_word (i.toUInt64 ^^^ 0x8000000000000000)).map
    fun w => (w ^^^ 0x8000000000000000).toInt64
  rwa [turnTop_twice, Int64.toInt64_toUInt64] at taken

theorem ofFloatWord_floatWord (x : Binary64) : ofFloatWord (floatWord x) = x.settled := by
  have place := toNat_floatWord x
  have bound := x.magnitude_lt
  have top : Binary64.signBit = 0x8000000000000000 := rfl
  cases nan : x.isNaN
  · have small := magnitude_lt_of_isNaN nan
    have apart : floatWord x ≠ 0xffffffffffffffff := by
      intro same
      rw [same, nan] at place
      simp only [UInt64.reduceToNat, Bool.false_eq_true, if_false] at place
      split at place <;> omega
    cases sign : x.negative
    · rw [nan, sign] at place
      simp only [Bool.false_eq_true, if_false] at place
      rw [ofFloatWord, if_neg apart, if_pos (by omega), Binary64.settled, nan]
      simp only [floatWord, nan, sign, Bool.false_eq_true, if_false, turnTop_twice]
    · rw [nan, sign] at place
      simp only [Bool.false_eq_true, if_false, if_true] at place
      rw [ofFloatWord, if_neg apart, if_neg (by omega), Binary64.settled, nan]
      simp [floatWord, nan, sign]
  · simp [ofFloatWord, floatWord, Binary64.settled, nan]

theorem takes_float (x : Binary64) : Takes readFloat (float x) x.settled := by
  have taken := (takes_word (floatWord x)).map ofFloatWord
  rwa [ofFloatWord_floatWord] at taken

-- Said of the function and not of one number: there the kernel would run the range check on a number that
-- it does not know, and count through the product in it.
theorem dateOfMillis_eq : dateOfMillis = fun ms =>
    match Timestamp.ofMillis? ms.toInt with
    | some t => .ok t
    | none => .error (.encoding (.dateOutOfRange ms.toInt)) := rfl

theorem dateOfMillis_millis {t : Timestamp} (near : t.isBeyond = false) :
    dateOfMillis (millis t) = .ok t.settled := by
  have found : Timestamp.ofMillis? (millis t).toInt = some t.settled := by
    rw [millis_toInt, Timestamp.ofMillis?_millis near]
  rw [dateOfMillis_eq]
  simp only [found]

theorem dateOfMillis_of_beyond {t : Timestamp} (beyond : t.isBeyond = true) :
    dateOfMillis (millis t) = .error (.encoding (.dateOutOfRange t.millis)) := by
  have missed : Timestamp.ofMillis? (millis t).toInt = none := by
    rw [millis_toInt, Timestamp.ofMillis?_millis_of_beyond beyond]
  rw [millis_toInt] at missed
  rw [dateOfMillis_eq]
  simp only [millis_toInt, missed]

end Ordered

namespace Value

variable {mode : AttributeMode} {v w : Value}

theorem told_of_near (near : v.isBeyond = false) : v.told mode = .ok (v.kept mode) := by
  cases v with
  | date t => rw [told, Ordered.dateOfMillis_millis near, kept]; rfl
  | _ => rfl

theorem told_of_beyond (mode : AttributeMode) (beyond : v.isBeyond = true) :
    ∃ t, v = date t ∧ v.told mode = .error (.encoding (.dateOutOfRange t.millis)) := by
  cases v with
  | date t => exact ⟨t, rfl, by rw [told, Ordered.dateOfMillis_of_beyond beyond]; rfl⟩
  | _ => cases beyond

theorem told_lastLeap (mode : AttributeMode) :
    (date .lastLeap).told mode = .error (.encoding (.dateOutOfRange 8210266876800000)) := by
  rw [told, Ordered.dateOfMillis_of_beyond (by decide)]
  rfl

/-- A reader tells values apart of which different things are kept, also those that it refuses. -/
theorem kept_of_told_eq (same : v.told mode = w.told mode) : v.kept mode = w.kept mode := by
  cases beyond : v.isBeyond <;> cases beyond' : w.isBeyond
  · rw [told_of_near beyond, told_of_near beyond'] at same
    exact Except.ok.inj same
  · obtain ⟨t, -, refused⟩ := told_of_beyond mode beyond'
    rw [told_of_near beyond, refused] at same
    cases same
  · obtain ⟨t, -, refused⟩ := told_of_beyond mode beyond
    rw [refused, told_of_near beyond'] at same
    cases same
  · obtain ⟨s, rfl, refused⟩ := told_of_beyond mode beyond
    obtain ⟨t, rfl, refused'⟩ := told_of_beyond mode beyond'
    rw [refused, refused'] at same
    injection same with fault
    injection fault with cause
    injection cause with millis
    rw [kept, kept, Timestamp.settled_eq_iff.2 millis]

end Value

namespace Ordered

theorem takes_uuid (u : Uuid) : Takes readUuid u.bytes u := by
  intro rest
  have taken := takes_take u.bytes rest
  rw [u.length_eq] at taken
  simp [readUuid, taken, Uuid.ofBytes?, u.length_eq]

/-- What a value of a declared type is read as. -/
theorem read_write (v : Value) (rest : Bytes) :
    read v.dataType (write v ++ rest) = (v.told .ordered, rest) := by
  cases v with
  | bool b => cases b <;> exact (takes_byte _).map (fun b => Value.bool (b ≠ 0)) rest
  | int i => exact (takes_int i).map Value.int rest
  | float x => exact (takes_float x).map Value.float rest
  | string s => exact (takes_escapedText s).map Value.string rest
  | date t => exact (takes_int (millis t)).judged dateOfMillis Value.date rest
  | uuid u => exact (takes_uuid u).map Value.uuid rest
  | geo lat lon =>
    exact (takes_float lat).bind ((takes_float lon).map (Value.geo lat.settled)) rest
  | bytes b => exact (takes_escaped b).map Value.bytes rest

/-- A place on the equator, at the negative zero, with a longitude that is no number. -/
def belowEquator : Value := .geo ⟨0x8000000000000000⟩ ⟨0x7ff0000000000001⟩

/-- The same at the positive zero, with another longitude that is no number. -/
def onEquator : Value := .geo ⟨0⟩ ⟨0xfff8000000000000⟩

end Ordered

namespace Compact

theorem takes_int (i : Int64) : Takes readInt (bigEndian 8 i.toUInt64.toNat) i :=
  (takes_word i.toUInt64).map UInt64.toInt64

theorem takes_float (x : Binary64) : Takes readFloat (bigEndian 8 x.bits.toNat) x :=
  (takes_word x.bits).map Binary64.mk

theorem read_write {v : Value} (short : fits v = true) (rest : Bytes) :
    read v.dataType (write v ++ rest) = (v.told .compact, rest) := by
  cases v with
  | bool b => cases b <;> exact (takes_byte _).map (fun b => Value.bool (b ≠ 0)) rest
  | int i => exact (takes_int i).map Value.int rest
  | float x => exact (takes_float x).map Value.float rest
  | string s =>
    exact (takes_lengthPrefixed (of_decide_eq_true short)).check (decodeText_encode s) Value.string rest
  | date t => exact (takes_int (Ordered.millis t)).judged Ordered.dateOfMillis Value.date rest
  | uuid u => exact (Ordered.takes_uuid u).map Value.uuid rest
  | geo lat lon => exact (takes_float lat).bind ((takes_float lon).map (Value.geo lat)) rest
  | bytes b => exact (takes_lengthPrefixed (of_decide_eq_true short)).map Value.bytes rest

theorem write_ne_nil (v : Value) : write v ≠ [] := by
  cases v with
  | uuid u =>
    intro empty
    have size := u.length_eq
    rw [show u.bytes = [] from empty] at size
    contradiction
  | _ => exact nofun

theorem readTagged_writeTagged {v : Value} (short : fits v = true) (rest : Bytes) :
    readTagged (writeTagged v ++ rest) = (v.told .compact, rest) := by
  refine (Attempt.bind_run_ok (takes_byte (tag v) (write v ++ rest))).trans ?_
  simp only [typeOfTag?_tag]
  exact read_write short rest

end Compact

end GraphStore
