import Procurement.Text.Blank

/-!
# Instants and the calendar

An instant counts seconds since 1970-01-01T00:00:00 UTC and nanoseconds within
the second. A leap second is the second half of a doubled second number 59 of
its minute: its nanoseconds run from one to two thousand million. Instants span
the years -262143 to 262142 of the proleptic Gregorian calendar.
-/

namespace Procurement

/-- The first second that an instant may have. -/
def firstSecond : Int := -8334601228800

/-- The last second that an instant may have. -/
def lastSecond : Int := 8210266876799

/-- Whether seconds and nanoseconds make an instant. -/
def Representable (seconds : Int) (nanos : Nat) : Prop :=
  firstSecond ≤ seconds ∧ seconds ≤ lastSecond ∧
    (nanos < 1000000000 ∨ nanos < 2000000000 ∧ seconds % 60 = 59)

instance (seconds : Int) (nanos : Nat) : Decidable (Representable seconds nanos) := by
  unfold Representable
  infer_instance

/-- A moment in time, to the nanosecond. -/
structure Instant where
  /-- Whole seconds since the start of 1970. -/
  seconds : Int
  /-- Nanoseconds into the second; from a thousand million on, into a leap second. -/
  nanos : Nat
  /-- The moment lies in the calendar's span. -/
  representable : Representable seconds nanos
  deriving DecidableEq

namespace Instant

/-- The instant with the given seconds and nanoseconds, if there is one. -/
def ofUnix? (seconds : Int) (nanos : Nat) : Option Instant :=
  if h : Representable seconds nanos then some ⟨seconds, nanos, h⟩ else none

/-- Noon of the first of September 2024, where a market's clock stands at first. -/
def initial : Instant := ⟨1725192000, 0, by decide⟩

/-- Days from 1970-01-01 to the given day of the Gregorian calendar. The year is
taken to start in March, so that the leap day comes last. -/
def daysOfDate (year : Int) (month day : Nat) : Int :=
  let y := if month ≤ 2 then year - 1 else year
  let era := y.fdiv 400
  let yearOfEra := (y - era * 400).toNat
  let monthFromMarch := (month + 9) % 12
  let dayOfYear := (153 * monthFromMarch + 2) / 5 + (day - 1)
  let dayOfEra := yearOfEra * 365 + yearOfEra / 4 - yearOfEra / 100 + dayOfYear
  era * 146097 + dayOfEra - 719468

/-- The year, month and day that lie the given number of days after 1970-01-01. -/
def dateOfDays (days : Int) : Int × Nat × Nat :=
  let shifted := days + 719468
  let era := shifted.fdiv 146097
  let dayOfEra := (shifted - era * 146097).toNat
  let yearOfEra := (dayOfEra - dayOfEra / 1460 + dayOfEra / 36524 - dayOfEra / 146096) / 365
  let dayOfYear := dayOfEra - (365 * yearOfEra + yearOfEra / 4 - yearOfEra / 100)
  let monthFromMarch := (5 * dayOfYear + 2) / 153
  let day := dayOfYear - (153 * monthFromMarch + 2) / 5 + 1
  let month := if monthFromMarch < 10 then monthFromMarch + 3 else monthFromMarch - 9
  let year := (yearOfEra : Int) + era * 400
  (if month ≤ 2 then year + 1 else year, month, day)

/-- Whether a year has a leap day. -/
def isLeapYear (year : Int) : Bool :=
  year % 4 == 0 && (year % 100 != 0 || year % 400 == 0)

/-- The number of days of a month. -/
def daysInMonth (year : Int) (month : Nat) : Nat :=
  if month = 2 then (if isLeapYear year then 29 else 28)
  else if month ∈ [4, 6, 9, 11] then 30
  else 31

/-- Whether a day exists in the calendar. -/
def isDate (year : Int) (month day : Nat) : Bool :=
  1 ≤ month && month ≤ 12 && 1 ≤ day && day ≤ daysInMonth year month

/-- The calendar day of an instant. -/
def date (t : Instant) : Int × Nat × Nat := dateOfDays (t.seconds.fdiv 86400)

/-- The seconds of an instant since the start of its day. -/
def secondOfDay (t : Instant) : Nat := (t.seconds.fmod 86400).toNat

end Instant

end Procurement
