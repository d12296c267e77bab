import GraphStore.Calendar.Timestamp

/-!
The proleptic Gregorian calendar. Days count from 1 January 1970. A year is taken to start in March,
so that the leap day is its last day and every month's start is a linear function of the month.
-/
namespace GraphStore

structure Date where
  year : Int
  month : Nat
  day : Nat
  deriving DecidableEq, Repr

namespace Date

def isLeapYear (year : Int) : Bool := year % 4 = 0 && (year % 100 ≠ 0 || year % 400 = 0)

def daysInMonth (year : Int) (month : Nat) : Nat :=
  if month = 2 then (if isLeapYear year then 29 else 28)
  else if month = 4 ∨ month = 6 ∨ month = 9 ∨ month = 11 then 30
  else 31

def isValid (d : Date) : Bool :=
  1 ≤ d.month && d.month ≤ 12 && 1 ≤ d.day && d.day ≤ daysInMonth d.year d.month
    && -262143 ≤ d.year && d.year ≤ 262142

/-- Days in the years, leap days counted, before a March-based year of a 400-year cycle. -/
def daysBeforeYear (y : Int) : Int := 365 * y + y / 4 - y / 100

/-- Days before a month that is counted from March. -/
def daysBeforeMonth (m : Int) : Int := (153 * m + 2) / 5

def toDays (d : Date) : Int :=
  let year := if d.month ≤ 2 then d.year - 1 else d.year
  let month : Int := if d.month ≤ 2 then d.month + 9 else d.month - 3
  year / 400 * 146097 + daysBeforeYear (year % 400) + daysBeforeMonth month + (d.day - 1) - 719468

def ofDays (days : Int) : Date :=
  let shifted := days + 719468
  let cycle := shifted / 146097
  let inCycle := shifted % 146097
  let year := (inCycle - inCycle / 1460 + inCycle / 36524 - inCycle / 146096) / 365
  let inYear := inCycle - daysBeforeYear year
  let month := (5 * inYear + 2) / 153
  let day := inYear - daysBeforeMonth month + 1
  let civilMonth := if month < 10 then month + 3 else month - 9
  ⟨cycle * 400 + year + (if civilMonth ≤ 2 then 1 else 0), civilMonth.toNat, day.toNat⟩

example : ofDays 0 = ⟨1970, 1, 1⟩ ∧ ofDays (-1) = ⟨1969, 12, 31⟩ ∧ ofDays 11016 = ⟨2000, 2, 29⟩ := by
  decide

end Date

end GraphStore
