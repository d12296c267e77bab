import GraphStore.Calendar.Timestamp

/-!
Points in time as stored forms and clocks have them. Milliseconds leave no room for leap seconds, so there a
leap second is the second after it. A clock shows one at the end of a minute, where it would otherwise start the
next, and nowhere else.
-/
namespace GraphStore.Timestamp

variable {s t : Timestamp}

/-- The point in time without what lies below a millisecond. -/
def floorMillis (t : Timestamp) : Timestamp :=
  ⟨t.seconds, t.nanos / 1000000 * 1000000, by have := t.nanos_lt; omega, t.seconds_in_range⟩

/-- In the leap second after the last second, whose milliseconds are those of no date. -/
def isBeyond (t : Timestamp) : Bool := t.isLeap && t.seconds = 8210266876799

/-- A point in a leap second, taken for the same one in the second after it, where there is a second. -/
def carried (t : Timestamp) : Timestamp :=
  if h : t.isLeap = true ∧ t.seconds ≠ 8210266876799 then
    ⟨t.seconds + 1, t.nanos - 1000000000, by have := t.nanos_lt; omega,
      by have := t.seconds_in_range; omega⟩
  else t

/-- The date that is made of the milliseconds of a date. -/
def settled (t : Timestamp) : Timestamp := t.carried.floorMillis

/-- The date that a clock shows. -/
def shown (t : Timestamp) : Timestamp := if t.seconds % 60 = 59 then t else t.carried

theorem isLeap_iff : t.isLeap = true ↔ 1000000000 ≤ t.nanos := by simp [isLeap]

theorem isBeyond_iff : t.isBeyond = true ↔ t.isLeap = true ∧ t.seconds = 8210266876799 := by simp [isBeyond]

theorem carried_of_plain (plain : t.isLeap = false) : t.carried = t := by
  rw [carried, dif_neg (by simp [plain])]

theorem carried_of_beyond (beyond : t.isBeyond = true) : t.carried = t := by
  rw [carried, dif_neg fun h => h.2 (isBeyond_iff.1 beyond).2]

theorem carried_of_leap (leap : t.isLeap = true) (near : t.isBeyond = false) :
    t.carried.seconds = t.seconds + 1 ∧ t.carried.nanos = t.nanos - 1000000000 := by
  have before : t.seconds ≠ 8210266876799 := fun last => by simp [isBeyond, leap, last] at near
  rw [carried, dif_pos ⟨leap, before⟩]
  exact ⟨rfl, rfl⟩

/-- Outside of leap seconds a date only loses what lies below a millisecond. -/
theorem settled_of_plain (plain : t.isLeap = false) : t.settled = t.floorMillis := by
  rw [settled, carried_of_plain plain]

theorem carried_plain (near : t.isBeyond = false) : t.carried.isLeap = false := by
  cases leap : t.isLeap with
  | false => rwa [carried_of_plain leap]
  | true =>
    have small := t.nanos_lt
    obtain ⟨-, nanos⟩ := carried_of_leap leap near
    rw [isLeap, nanos, decide_eq_false_iff_not]
    omega

@[simp] theorem millis_carried (t : Timestamp) : t.carried.millis = t.millis := by
  by_cases leap : t.isLeap = true ∧ t.isBeyond = false
  · obtain ⟨seconds, nanos⟩ := carried_of_leap leap.1 leap.2
    have full := isLeap_iff.1 leap.1
    rw [millis, millis, seconds, nanos]
    omega
  · have same : t.carried = t := by
      cases plain : t.isLeap with
      | false => exact carried_of_plain plain
      | true => exact carried_of_beyond (by simpa [plain] using leap)
    rw [same]

@[simp] theorem millis_floorMillis (t : Timestamp) : t.floorMillis.millis = t.millis := by
  simp [millis, floorMillis]

theorem floorMillis_eq_iff : s.floorMillis = t.floorMillis ↔
    s.seconds = t.seconds ∧ s.nanos / 1000000 = t.nanos / 1000000 := by
  have whole : s.nanos / 1000000 * 1000000 = t.nanos / 1000000 * 1000000 ↔
      s.nanos / 1000000 = t.nanos / 1000000 := by omega
  rw [floorMillis, floorMillis, mk.injEq, whole]

/-- A date is that of its milliseconds if these are whole and in no leap second that another second follows. -/
theorem settled_eq_self_iff : t.settled = t ↔ t.floorMillis = t ∧ (t.isLeap = true → t.isBeyond = true) := by
  cases leap : t.isLeap with
  | false => simp [settled_of_plain leap]
  | true =>
    cases beyond : t.isBeyond with
    | true => simp [settled, carried_of_beyond beyond]
    | false =>
      have later : t.settled.seconds = t.seconds + 1 := (carried_of_leap leap beyond).1
      have moved : t.settled ≠ t := fun same => by rw [same] at later; omega
      simp [moved]

theorem millis_settled (t : Timestamp) : t.settled.millis = t.millis := by
  rw [settled, millis_floorMillis, millis_carried]

/-- Milliseconds are those of a date, unless they lie past the last second. -/
theorem ofMillis?_millis (near : t.isBeyond = false) : ofMillis? t.millis = some t.settled := by
  have plain := carried_plain near
  have range := t.carried.seconds_in_range
  rw [← millis_carried, settled]
  generalize t.carried = t at *
  have small : t.nanos < 1000000000 := by
    simpa [isLeap] using plain
  have second : (t.seconds * 1000 + ((t.nanos / 1000000 : Nat) : Int)) / 1000 = t.seconds := by omega
  have part : ((t.seconds * 1000 + ((t.nanos / 1000000 : Nat) : Int)) % 1000).toNat * 1000000
      = t.nanos / 1000000 * 1000000 := by omega
  simp only [ofMillis?, millis, second, part, ofParts?, floorMillis]
  rw [dif_pos ⟨by omega, range⟩]

theorem ofMillis?_millis_of_beyond (beyond : t.isBeyond = true) : ofMillis? t.millis = none := by
  obtain ⟨leap, last⟩ := isBeyond_iff.1 beyond
  have full := isLeap_iff.1 leap
  rw [ofMillis?, ofParts?, dif_neg]
  rw [millis, last]
  omega

theorem isBeyond_iff_millis : t.isBeyond = true ↔ 8210266876799999 < t.millis := by
  have small := t.nanos_lt
  have range := t.seconds_in_range
  rw [isBeyond_iff, isLeap_iff, millis]
  omega

/-- Dates become one date just if they have the same milliseconds. -/
theorem settled_eq_iff : s.settled = t.settled ↔ s.millis = t.millis := by
  constructor
  · intro same
    rw [← millis_settled s, same, millis_settled]
  · intro same
    have sides : s.isBeyond = t.isBeyond := by
      rw [Bool.eq_iff_iff, isBeyond_iff_millis, isBeyond_iff_millis, same]
    cases beyond : t.isBeyond with
    | false =>
      have found := ofMillis?_millis (sides.trans beyond)
      rw [same, ofMillis?_millis beyond] at found
      exact (Option.some.inj found).symm
    | true =>
      -- both lie in the one leap second that no other second follows
      have beyond' := sides.trans beyond
      have seconds : s.seconds = t.seconds := (isBeyond_iff.1 beyond').2.trans (isBeyond_iff.1 beyond).2.symm
      have parts : s.nanos / 1000000 = t.nanos / 1000000 := by
        rw [millis, millis, seconds] at same
        omega
      rw [settled, settled, carried_of_beyond beyond', carried_of_beyond beyond]
      exact floorMillis_eq_iff.2 ⟨seconds, parts⟩

/-- What a clock shows as a leap second ends a minute. -/
theorem minute_of_shown (leap : t.shown.isLeap = true) : t.shown.seconds % 60 = 59 := by
  rw [shown] at leap ⊢
  split
  · assumption
  · next inside =>
    rw [if_neg inside] at leap
    cases beyond : t.isBeyond with
    | false => rw [carried_plain beyond] at leap; cases leap
    | true => rw [(isBeyond_iff.1 beyond).2] at inside; contradiction

/-- In the middle of the leap second that ended the year 2016. -/
def endOf2016 : Timestamp := ⟨1483228799, 1500000000, by decide, by decide⟩

/-- In the middle of the second after it. -/
def startOf2017 : Timestamp := ⟨1483228800, 500000000, by decide, by decide⟩

example : endOf2016.isLeap = true ∧ endOf2016.shown = endOf2016 ∧ endOf2016.settled = startOf2017 := by decide

/-- The start of the leap second after the last second. -/
def lastLeap : Timestamp := ⟨8210266876799, 1000000000, by decide, by decide⟩

example : lastLeap.isBeyond = true ∧ ofMillis? lastLeap.millis = none := by decide

end GraphStore.Timestamp
