import GraphStore.Calendar.Rfc3339
import GraphStore.Proofs.Calendar.Date
import GraphStore.Proofs.Calendar.Timestamp

/-!
Timestamps told apart by their texts. Numbers are runs of digits between marks that are no digits, so a text can
be cut in one way only, and each number is read off its digits. What the text does not show is what lies below
its last digit.
-/
namespace GraphStore.Rfc3339

variable {a b x y : List Char} {m n width : Nat}

theorem toList_padded (width n : Nat) : (padded width n).toList =
    List.replicate (width - (toString n).length) '0' ++ Nat.toDigits 10 n := by
  rw [padded, String.toList_append, String.toList_ofList]
  exact congrArg _ Nat.toList_repr

theorem padded_digits : ∀ c ∈ (padded width n).toList, c.isDigit = true := by
  intro c there
  rw [toList_padded] at there
  rcases List.mem_append.1 there with front | back
  · rw [List.eq_of_mem_replicate front]
    rfl
  · exact Nat.isDigit_of_mem_toDigits (by decide) (by decide) back

theorem ofDigitChars_padded (width n : Nat) : Nat.ofDigitChars 10 (padded width n).toList 0 = n := by
  rw [toList_padded, Nat.ofDigitChars_append, Nat.ofDigitChars_replicate_zero, Nat.mul_zero,
    Nat.ofDigitChars_toDigits (by decide) (by decide)]

theorem padded_inj (same : (padded width m).toList = (padded width n).toList) : m = n := by
  rw [← ofDigitChars_padded width m, same, ofDigitChars_padded]

/-- A run of digits ends where the first other character stands. -/
theorem digits_split (left : ∀ c ∈ a, c.isDigit = true) (right : ∀ c ∈ b, c.isDigit = true) {mark : Char}
    (other : mark.isDigit = false) (same : a ++ mark :: x = b ++ mark :: y) : a = b ∧ x = y := by
  induction a generalizing b with
  | nil =>
    cases b with
    | nil => exact ⟨rfl, (List.cons.inj same).2⟩
    | cons c rest =>
      have digit := right c List.mem_cons_self
      rw [← (List.cons.inj same).1, other] at digit
      cases digit
  | cons c rest ih =>
    cases b with
    | nil =>
      have digit := left c List.mem_cons_self
      rw [(List.cons.inj same).1, other] at digit
      cases digit
    | cons c' rest' =>
      obtain ⟨rfl, tails⟩ := List.cons.inj same
      obtain ⟨rfl, ends⟩ := ih (fun c there => left c (List.mem_cons_of_mem _ there))
        (fun c there => right c (List.mem_cons_of_mem _ there)) tails
      exact ⟨rfl, ends⟩

theorem padded_split {mark : Char} (other : mark.isDigit = false)
    (same : (padded width m).toList ++ mark :: x = (padded width n).toList ++ mark :: y) : m = n ∧ x = y := by
  obtain ⟨digits, rest⟩ := digits_split padded_digits padded_digits other same
  exact ⟨padded_inj digits, rest⟩

/-- A year of four digits has no sign, and any other has one. -/
def yearSign (year : Int) : List Char :=
  if 0 ≤ year ∧ year ≤ 9999 then [] else if year < 0 then ['-'] else ['+']

theorem toList_yearText (year : Int) :
    (yearText year).toList = yearSign year ++ (padded 4 year.natAbs).toList := by
  rw [yearText, yearSign]
  by_cases plain : 0 ≤ year ∧ year ≤ 9999
  · rw [if_pos plain, if_pos plain, List.nil_append, show year.toNat = year.natAbs by omega]
  · have minus : "-".toList = ['-'] := by decide
    have plus : "+".toList = ['+'] := by decide
    rw [if_neg plain, if_neg plain, String.toList_append]
    by_cases negative : year < 0
    · rw [if_pos negative, if_pos negative, minus]
    · rw [if_neg negative, if_neg negative, plus]

theorem yearSign_mem (year : Int) : yearSign year = [] ∨ yearSign year = ['-'] ∨ yearSign year = ['+'] := by
  rw [yearSign]
  split
  · exact .inl rfl
  · split
    · exact .inr (.inl rfl)
    · exact .inr (.inr rfl)

theorem yearSign_eq_minus (year : Int) : yearSign year = ['-'] ↔ year < 0 := by
  rw [yearSign]
  split
  · next plain => simp [Int.not_lt.2 plain.1]
  · split
    · next negative => simp [negative]
    · next positive => simpa using positive

/-- A sign is seen, since no digit is one. -/
theorem yearSign_split {year year' : Int} {c c' : Char} (digit : c.isDigit = true) (digit' : c'.isDigit = true)
    (same : yearSign year ++ c :: x = yearSign year' ++ c' :: y) : yearSign year = yearSign year' := by
  obtain sign | sign | sign := yearSign_mem year <;>
    obtain sign' | sign' | sign' := yearSign_mem year' <;> rw [sign, sign'] at same ⊢
  case inl.inr.inl | inl.inr.inr =>
    rw [(List.cons.inj same).1] at digit
    cases digit
  case inr.inl.inl | inr.inr.inl =>
    rw [← (List.cons.inj same).1] at digit'
    cases digit'
  case inr.inl.inr.inr | inr.inr.inr.inl => exact absurd (List.cons.inj same).1 (by decide)

theorem padded_front (width n : Nat) : ∃ c cs, (padded width n).toList = c :: cs ∧ c.isDigit = true := by
  cases front : (padded width n).toList with
  | nil =>
    rw [toList_padded] at front
    exact absurd (List.append_eq_nil_iff.1 front).2 Nat.toDigits_ne_nil
  | cons c cs => exact ⟨c, cs, rfl, padded_digits c (front ▸ List.mem_cons_self)⟩

theorem yearText_split {year year' : Int}
    (same : (yearText year).toList ++ '-' :: x = (yearText year').toList ++ '-' :: y) :
    year = year' ∧ x = y := by
  rw [toList_yearText, toList_yearText, List.append_assoc, List.append_assoc] at same
  obtain ⟨c, cs, front, digit⟩ := padded_front 4 year.natAbs
  obtain ⟨c', cs', front', digit'⟩ := padded_front 4 year'.natAbs
  have sign : yearSign year = yearSign year' := by
    rw [front, front'] at same
    exact yearSign_split digit digit' same
  have side : year < 0 ↔ year' < 0 := by rw [← yearSign_eq_minus, sign, yearSign_eq_minus]
  rw [sign, List.append_cancel_left_eq] at same
  obtain ⟨digits, rest⟩ := padded_split (by decide) same
  exact ⟨by omega, rest⟩

/-- The characters of a text, by second and millisecond. -/
def millisChars (seconds : Int) (leap : Bool) (millis : Nat) : List Char :=
  let date := Date.ofDays (seconds / 86400)
  let clock := (seconds % 86400).toNat
  (yearText date.year).toList ++ '-' :: ((padded 2 date.month).toList ++ '-' ::
    ((padded 2 date.day).toList ++ 'T' :: ((padded 2 (clock / 3600)).toList ++ ':' ::
      ((padded 2 (clock / 60 % 60)).toList ++ ':' :: ((padded 2 (clock % 60 + leap.toNat)).toList ++ '.' ::
        ((padded 3 millis).toList ++ ['Z']))))))

theorem toList_text (t : Timestamp) : (text .millis .zulu t).toList =
    millisChars t.seconds t.isLeap (t.nanos % 1000000000 / 1000000) := by
  have marks : "-".toList = ['-'] ∧ "T".toList = ['T'] ∧ ":".toList = [':'] ∧ ".".toList = ['.'] ∧
      "Z".toList = ['Z'] := by decide
  have flag : (if t.isLeap then 1 else 0) = t.isLeap.toNat := by cases t.isLeap <;> rfl
  simp [text, fractionText, millisChars, marks, flag]

/-- A leap second that ends its minute is told from all other seconds. -/
theorem millisChars_inj {seconds seconds' : Int} {leap leap' : Bool} {millis millis' : Nat}
    (ends : leap = true → seconds % 60 = 59) (ends' : leap' = true → seconds' % 60 = 59)
    (same : millisChars seconds leap millis = millisChars seconds' leap' millis') :
    seconds = seconds' ∧ leap = leap' ∧ millis = millis' := by
  simp only [millisChars] at same
  obtain ⟨year, same⟩ := yearText_split same
  obtain ⟨month, same⟩ := padded_split (by decide) same
  obtain ⟨day, same⟩ := padded_split (by decide) same
  obtain ⟨hour, same⟩ := padded_split (by decide) same
  obtain ⟨minute, same⟩ := padded_split (by decide) same
  obtain ⟨second, same⟩ := padded_split (by decide) same
  obtain ⟨millis, -⟩ := padded_split (by decide) same
  have days := Date.eq_of_ofDays year month day
  have leaps : leap = leap' := by
    cases leap <;> cases leap' <;> simp only [Bool.toNat_false, Bool.toNat_true, forall_const] at *
    all_goals omega
  rw [leaps] at second
  exact ⟨by omega, leaps, millis⟩

/-- A leap second inside of a minute is written like the second after it. -/
theorem text_shown (fraction : Fraction) (offset : Offset) (t : Timestamp) :
    text fraction offset t.shown = text fraction offset t := by
  rw [Timestamp.shown]
  split
  · rfl
  next inside =>
  cases leap : t.isLeap with
  | false => rw [Timestamp.carried_of_plain leap]
  | true =>
  cases near : t.isBeyond with
  | true => rw [Timestamp.carried_of_beyond near]
  | false =>
    have full := Timestamp.isLeap_iff.1 leap
    have small := t.nanos_lt
    have plain := Timestamp.carried_plain near
    obtain ⟨seconds, nanos⟩ := Timestamp.carried_of_leap leap near
    have day : (t.seconds + 1) / 86400 = t.seconds / 86400 := by omega
    have clock : ((t.seconds + 1) % 86400).toNat = (t.seconds % 86400).toNat + 1 := by omega
    have hour : ((t.seconds % 86400).toNat + 1) / 3600 = (t.seconds % 86400).toNat / 3600 := by omega
    have minute : ((t.seconds % 86400).toNat + 1) / 60 = (t.seconds % 86400).toNat / 60 := by omega
    have second : ((t.seconds % 86400).toNat + 1) % 60 = (t.seconds % 86400).toNat % 60 + 1 := by omega
    have rest : (t.nanos - 1000000000) % 1000000000 = t.nanos % 1000000000 := by omega
    simp only [text, plain, leap, seconds, nanos, day, clock, hour, minute, second, rest]
    rfl

/-- With three digits of the second's fraction a text tells the milliseconds that a clock shows, and nothing
below. -/
theorem text_millis_eq_iff (s t : Timestamp) : text .millis .zulu s = text .millis .zulu t ↔
    s.shown.floorMillis = t.shown.floorMillis := by
  rw [← text_shown, ← text_shown _ _ t, ← String.toList_inj, toList_text, toList_text]
  generalize shown : s.shown = s', shown' : t.shown = t'
  rw [Timestamp.floorMillis_eq_iff]
  constructor
  · intro same
    obtain ⟨seconds, leaps, parts⟩ := millisChars_inj (shown ▸ Timestamp.minute_of_shown)
      (shown' ▸ Timestamp.minute_of_shown) same
    have small := s'.nanos_lt
    have small' := t'.nanos_lt
    have sides : 1000000000 ≤ s'.nanos ↔ 1000000000 ≤ t'.nanos := by
      rw [← Timestamp.isLeap_iff, leaps, Timestamp.isLeap_iff]
    exact ⟨seconds, by omega⟩
  · rintro ⟨seconds, nanos⟩
    have leaps : s'.isLeap = t'.isLeap := by
      rw [Timestamp.isLeap, Timestamp.isLeap, decide_eq_decide]
      omega
    have parts : s'.nanos % 1000000000 / 1000000 = t'.nanos % 1000000000 / 1000000 := by omega
    rw [seconds, leaps, parts]

end GraphStore.Rfc3339
