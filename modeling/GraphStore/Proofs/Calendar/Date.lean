import GraphStore.Calendar.Date
import Mathlib.Tactic.Common

/-!
The calendar read both ways. Within a cycle of 400 years the year of a day is found by counting out the leap
days that came before it, so that years of 365 days are left; the century decides how many of those are missing.
-/
namespace GraphStore.Date

variable {day year century : Int}

/-- Of the days of a cycle the last one alone lies outside four even centuries. -/
theorem century_bounds (first : 0 ≤ day) (last : day < 146097)
    (counted : century = day / 36524 - day / 146096) : 0 ≤ century ∧ century ≤ 3 ∧
      36524 * century ≤ day ∧ (day < 36524 * century + 36524 ∨ century = 3 ∧ day = 146096) := by
  omega

theorem year_bounds (first : 0 ≤ day) (last : day < 146097)
    (found : year = (day - day / 1460 + day / 36524 - day / 146096) / 365) :
    0 ≤ year ∧ year ≤ 399 ∧ daysBeforeYear year ≤ day ∧ day ≤ daysBeforeYear year + 365 := by
  obtain ⟨century, counted⟩ : ∃ century, century = day / 36524 - day / 146096 := ⟨_, rfl⟩
  obtain ⟨lower, upper, since, before⟩ := century_bounds first last counted
  have found : year = (day - day / 1460 + century) / 365 := by rw [found, counted]; congr 1; omega
  have same : year / 100 = century := by
    obtain even | ⟨rfl, rfl⟩ := before
    · omega
    · omega
  rw [daysBeforeYear, same]
  refine ⟨by omega, by omega, ?_, ?_⟩
  · omega
  · omega

/-- The parts of a day: its cycle, the year and the month from March in it, and the day from the first. -/
theorem ofDays_parts (days : Int) : ∃ cycle year month day : Int, 0 ≤ year ∧ year ≤ 399 ∧
    0 ≤ month ∧ month ≤ 11 ∧ 0 ≤ day ∧
    days + 719468 = cycle * 146097 + daysBeforeYear year + daysBeforeMonth month + day ∧
    ofDays days = ⟨cycle * 400 + year + (if month < 10 then 0 else 1),
      (if month < 10 then month + 3 else month - 9).toNat, (day + 1).toNat⟩ := by
  obtain ⟨inCycle, inCycle_eq⟩ : ∃ d, d = (days + 719468) % 146097 := ⟨_, rfl⟩
  obtain ⟨year, year_eq⟩ : ∃ y, y = (inCycle - inCycle / 1460 + inCycle / 36524 - inCycle / 146096) / 365 :=
    ⟨_, rfl⟩
  obtain ⟨lower, upper, since, before⟩ := year_bounds (by omega) (by omega) year_eq
  obtain ⟨month, month_eq⟩ : ∃ m, m = (5 * (inCycle - daysBeforeYear year) + 2) / 153 := ⟨_, rfl⟩
  refine ⟨(days + 719468) / 146097, year, month,
    inCycle - daysBeforeYear year - daysBeforeMonth month, lower, upper, by omega, by omega, ?_, by omega, ?_⟩
  · rw [daysBeforeMonth]
    omega
  · simp only [ofDays, ← inCycle_eq, ← year_eq, ← month_eq]
    by_cases spring : month < 10
    · simp only [spring, if_true, mk.injEq, and_true]
      omega
    · simp only [spring, if_false, mk.injEq, and_true]
      omega

theorem toDays_ofDays (days : Int) : (ofDays days).toDays = days := by
  obtain ⟨cycle, year, month, day, lower, upper, first, last, start, sum, parts⟩ := ofDays_parts days
  have inCycle : (cycle * 400 + year) % 400 = year := by omega
  have cycles : (cycle * 400 + year) / 400 = cycle := by omega
  rw [parts, toDays]
  by_cases spring : month < 10
  · have later : ¬(month + 3).toNat ≤ 2 := by omega
    have counted : ((month + 3).toNat : Int) - 3 = month := by omega
    simp only [spring, if_true, later, if_false, counted, Int.add_zero, inCycle, cycles]
    omega
  · have early : (month - 9).toNat ≤ 2 := by omega
    have counted : ((month - 9).toNat : Int) + 9 = month := by omega
    simp only [spring, if_false, early, if_true, counted, Int.add_sub_cancel, inCycle, cycles]
    omega

theorem eq_of_ofDays {days days' : Int} (year : (ofDays days).year = (ofDays days').year)
    (month : (ofDays days).month = (ofDays days').month) (day : (ofDays days).day = (ofDays days').day) :
    days = days' := by
  have same : ofDays days = ofDays days' := calc
    ofDays days = ⟨(ofDays days).year, (ofDays days).month, (ofDays days).day⟩ := rfl
    _ = ⟨(ofDays days').year, (ofDays days').month, (ofDays days').day⟩ := by rw [year, month, day]
  rw [← toDays_ofDays days, same, toDays_ofDays]

end GraphStore.Date
