import Procurement.Instant.Basic
import Mathlib.Tactic.ByContra
import Mathlib.Tactic.IntervalCases

/-!
# The calendar counts right

The date of a day is found by dividing: the days of an era of 400 years by the
length of a year, once the leap days before them are taken out, and the days of a
year by the mean length of a month. This file shows that the quotients are the
year and the month in which the day lies. Hence the date exists in the calendar,
and counting its days gives the day back.
-/

namespace Procurement.Instant

/-! ## Years

The years of an era run from March to February and are numbered from 0 to 399. -/

/-- The number of days of an era before a year of it. -/
def yearStart (year : Nat) : Nat := 365 * year + year / 4 - year / 100 + year / 400

/-- The number of days of an era before a day of it, without the leap days. -/
def ordinaryDays (day : Nat) : Nat := day - day / 1460 + day / 36524 - day / 146096

/-- The year in which a day of an era lies. -/
def yearOfDay (day : Nat) : Nat := ordinaryDays day / 365

/-- A later day of an era has no less ordinary days before it. -/
theorem ordinaryDays_mono {day later : Nat} (h : day ≤ later) (hlater : later < 146097) :
    ordinaryDays day ≤ ordinaryDays later := by
  unfold ordinaryDays
  omega

/-- The first day of each year has as many ordinary days before it as there should be. -/
theorem le_ordinaryDays_yearStart :
    ∀ year < 400, 365 * year ≤ ordinaryDays (yearStart year) := by
  decide +kernel

/-- The last day of each year has less ordinary days before it than the next year should. -/
theorem ordinaryDays_yearStart_lt :
    ∀ year < 400, ordinaryDays (yearStart (year + 1) - 1) < 365 * (year + 1) := by
  decide +kernel

section YearOfDay

variable {day : Nat} (h : day < 146097)

include h

/-- The years of an era are numbered below 400. -/
theorem yearOfDay_lt : yearOfDay day < 400 := by
  unfold yearOfDay ordinaryDays
  omega

/-- A day does not lie before the start of its year. -/
theorem yearStart_yearOfDay_le : yearStart (yearOfDay day) ≤ day := by
  by_contra hearly
  have hyear := yearOfDay_lt h
  have hquotient : 365 * yearOfDay day ≤ ordinaryDays day := by
    unfold yearOfDay
    omega
  generalize yearOfDay day = year at *
  -- The day would come before the end of the year before.
  cases year with
  | zero => exact hearly (Nat.zero_le day)
  | succ year =>
    have hstart : yearStart (year + 1) ≤ 146097 := by
      unfold yearStart
      omega
    have hmono := @ordinaryDays_mono day (yearStart (year + 1) - 1) (by omega) (by omega)
    have hend := ordinaryDays_yearStart_lt year (by omega)
    omega

/-- A day lies before the start of the year after its own. -/
theorem lt_yearStart_yearOfDay : day < yearStart (yearOfDay day + 1) := by
  by_contra hlate
  have hyear := yearOfDay_lt h
  have hquotient : ordinaryDays day < 365 * (yearOfDay day + 1) := by
    unfold yearOfDay
    omega
  generalize yearOfDay day = year at *
  by_cases hlast : year + 1 = 400
  · rw [hlast] at hlate
    exact hlate h
  · have hstart := le_ordinaryDays_yearStart (year + 1) (by omega)
    have hmono := ordinaryDays_mono (Nat.le_of_not_lt hlate) h
    omega

end YearOfDay

/-! ## Days of a year

The months of such a year are numbered from 0 to 11. -/

/-- The number of days of a year before a month of it. -/
def monthStart (month : Nat) : Nat := (153 * month + 2) / 5

/-- The month in which a day of a year lies. -/
def monthOfDay (day : Nat) : Nat := (5 * day + 2) / 153

/-- A day does not lie before the start of its month. -/
theorem monthStart_monthOfDay_le (day : Nat) : monthStart (monthOfDay day) ≤ day := by
  unfold monthStart monthOfDay
  omega

/-- A day lies before the start of the month after its own. -/
theorem lt_monthStart_monthOfDay (day : Nat) : day < monthStart (monthOfDay day + 1) := by
  unfold monthStart monthOfDay
  omega

/-- The months of a year are numbered below 12. -/
theorem monthOfDay_lt {day : Nat} (h : day < 366) : monthOfDay day < 12 := by
  unfold monthOfDay
  omega

/-- The number that a month has in the calendar. -/
def monthNumber (month : Nat) : Nat := if month < 10 then month + 3 else month - 9

/-- Every month but the last has the days between its start and that of the next one. -/
theorem daysInMonth_monthNumber (year : Int) : ∀ month < 11,
    daysInMonth year (monthNumber month) = monthStart (month + 1) - monthStart month := by
  intro month hmonth
  interval_cases month <;> simp [monthStart, monthNumber, daysInMonth]

/-- A year has the leap day of the February at its end. -/
theorem yearStart_succ (era : Int) {year : Nat} (h : year < 400) :
    yearStart (year + 1) =
      yearStart year + if isLeapYear (era * 400 + year + 1) then 366 else 365 := by
  have hleap : isLeapYear (era * 400 + year + 1) = true ↔
      (year + 1) % 4 = 0 ∧ ((year + 1) % 100 ≠ 0 ∨ (year + 1) % 400 = 0) := by
    simp only [isLeapYear, Bool.and_eq_true, Bool.or_eq_true, beq_iff_eq, bne_iff_ne]
    omega
  unfold yearStart
  split <;> rename_i hyear <;> rw [hleap] at hyear <;> omega

/-! ## Dates -/

/-- A date exists just if its month is one of twelve and its day is one of that month. -/
theorem isDate_iff {year : Int} {month day : Nat} : isDate year month day = true ↔
    1 ≤ month ∧ month ≤ 12 ∧ 1 ≤ day ∧ day ≤ daysInMonth year month := by
  simp only [isDate, Bool.and_eq_true, decide_eq_true_eq, and_assoc]

/-- The date of a day of a year that starts in March. -/
def dateInYear (year : Int) (day : Nat) : Int × Nat × Nat :=
  let month := monthNumber (monthOfDay day)
  (if month ≤ 2 then year + 1 else year, month, day - monthStart (monthOfDay day) + 1)

/-- Every day is a day of a year of an era, and has the date of this day. -/
theorem exists_dateOfDays_eq (days : Int) : ∃ (era : Int) (year day : Nat), year < 400 ∧
    day < yearStart (year + 1) - yearStart year ∧
    days = era * 146097 + (yearStart year + day : Nat) - 719468 ∧
    dateOfDays days = dateInYear (year + era * 400) day := by
  have hera := Int.mul_fdiv_add_fmod (days + 719468) 146097
  have hlow := Int.fmod_nonneg_of_pos (days + 719468) (b := 146097) (by omega)
  have hhigh := Int.fmod_lt_of_pos (days + 719468) (b := 146097) (by omega)
  generalize heq : (days + 719468).fdiv 146097 = era at hera
  generalize hrest : (days + 719468).fmod 146097 = rest at *
  have hday : rest.toNat < 146097 := by omega
  have hstart := yearStart_yearOfDay_le hday
  have hend := lt_yearStart_yearOfDay hday
  have hyear := yearOfDay_lt hday
  refine ⟨era, yearOfDay rest.toNat, rest.toNat - yearStart (yearOfDay rest.toNat), hyear,
    by omega, by omega, ?_⟩
  have hshifted : (days + 719468 - era * 146097).toNat = rest.toNat := by omega
  have hplain : 365 * yearOfDay rest.toNat + yearOfDay rest.toNat / 4 -
      yearOfDay rest.toNat / 100 = yearStart (yearOfDay rest.toNat) := by
    unfold yearStart
    omega
  unfold dateOfDays
  simp only [heq, hshifted]
  change (_, _, _) = _
  rw [show (rest.toNat - rest.toNat / 1460 + rest.toNat / 36524 - rest.toNat / 146096) / 365 =
    yearOfDay rest.toNat from rfl, hplain]
  rfl

section DateInYear

variable {era : Int} {year day : Nat} (hyear : year < 400)
  (hday : day < yearStart (year + 1) - yearStart year)

include hyear hday

/-- The date of a day exists. -/
theorem isDate_dateInYear :
    let date := dateInYear (year + era * 400) day
    isDate date.1 date.2.1 date.2.2 = true := by
  have hlength := yearStart_succ era hyear
  have hmonth : monthOfDay day < 12 := monthOfDay_lt (by split at hlength <;> omega)
  have hstart := monthStart_monthOfDay_le day
  have hend := lt_monthStart_monthOfDay day
  refine isDate_iff.mpr ⟨?_, ?_, Nat.le_add_left 1 _, ?_⟩ <;> dsimp only [dateInYear]
  · unfold monthNumber
    split <;> omega
  · unfold monthNumber
    split <;> omega
  · by_cases hlast : monthOfDay day = 11
    -- Only February depends on the year, and it takes what is left of it.
    · have hcommute : (year : Int) + era * 400 + 1 = era * 400 + year + 1 := by omega
      rw [hlast] at hstart ⊢
      change day - 337 + 1 ≤
        if isLeapYear (year + era * 400 + 1) then 29 else 28
      rw [hcommute]
      split at hlength <;> rename_i hleap
      · rw [if_pos hleap]
        omega
      · rw [if_neg hleap]
        omega
    · rw [daysInMonth_monthNumber _ _ (by omega)]
      omega

/-- Counting the days of a date gives the day back. -/
theorem daysOfDate_dateInYear :
    let date := dateInYear (year + era * 400) day
    daysOfDate date.1 date.2.1 date.2.2 =
      era * 146097 + (yearStart year + day : Nat) - 719468 := by
  have hlength := yearStart_succ era hyear
  have hmonth : monthOfDay day < 12 := monthOfDay_lt (by split at hlength <;> omega)
  have hstart := monthStart_monthOfDay_le day
  have hera : ((year : Int) + era * 400).fdiv 400 = era := by
    rw [Int.fdiv_eq_ediv_of_nonneg _ (by omega)]
    omega
  have hyearOfEra : ((year : Int) + era * 400 - era * 400).toNat = year := by omega
  have hnumber : (monthNumber (monthOfDay day) + 9) % 12 = monthOfDay day := by
    unfold monthNumber
    split <;> omega
  have hmarch (early : Prop) [Decidable early] (year : Int) :
      (if early then (if early then year + 1 else year) - 1
        else if early then year + 1 else year) = year := by
    split <;> omega
  unfold daysOfDate dateInYear
  dsimp only
  rw [hnumber, hmarch, hera, hyearOfEra]
  unfold yearStart
  unfold monthStart at hstart ⊢
  omega

end DateInYear

/-- The date of a day exists, and counting its days gives the day back. -/
theorem dateOfDays_spec (days : Int) :
    let date := dateOfDays days
    isDate date.1 date.2.1 date.2.2 = true ∧ daysOfDate date.1 date.2.1 date.2.2 = days := by
  obtain ⟨era, year, day, hyear, hday, hdays, hdate⟩ := exists_dateOfDays_eq days
  rw [hdate]
  exact ⟨isDate_dateInYear hyear hday, (daysOfDate_dateInYear hyear hday).trans hdays.symm⟩

end Procurement.Instant
