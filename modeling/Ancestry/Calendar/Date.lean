import Ancestry.Text.Integer

/-!
# Dates of the Gregorian calendar

Dates are counted in days from 1 January 1970, in the Gregorian calendar extended to
all years. The count is taken from 1 March of year zero, so that a leap day is the
last day of its year, in eras of four hundred years.

Instants of the library lie between the first day of year -262143 and the last day
of year 262142.
-/

namespace Ancestry.Calendar

/-- A day of the calendar. -/
structure Date where
  year : Int
  month : Nat
  day : Nat
  deriving DecidableEq, Repr

/-- A year with a leap day. -/
def isLeap (year : Int) : Bool :=
  year % 4 == 0 && (year % 100 != 0 || year % 400 == 0)

/-- Number of days of a month. -/
def monthLength (year : Int) (month : Nat) : Nat :=
  if month = 2 then (if isLeap year then 29 else 28)
  else if month = 4 ∨ month = 6 ∨ month = 9 ∨ month = 11 then 30
  else 31

/-- First and last year of an instant. -/
def firstYear : Int := -262143

/-- Last year of an instant. -/
def lastYear : Int := 262142

/-- The month and day exist, and the year is one of an instant. -/
def Date.isValid (date : Date) : Bool :=
  firstYear ≤ date.year && date.year ≤ lastYear && 1 ≤ date.month && date.month ≤ 12 &&
    1 ≤ date.day && date.day ≤ monthLength date.year date.month

/-- Days from 1 January 1970 to a date. -/
def Date.toDays (date : Date) : Int :=
  let year := if date.month ≤ 2 then date.year - 1 else date.year
  let era := year / 400
  let yearOfEra := year % 400
  let month := (date.month + 9) % 12
  let dayOfYear := (153 * month + 2) / 5 + (date.day - 1)
  let dayOfEra := yearOfEra * 365 + yearOfEra / 4 - yearOfEra / 100 + dayOfYear
  era * 146097 + dayOfEra - 719468

/-- The date some days after 1 January 1970. -/
def Date.ofDays (days : Int) : Date :=
  let shifted := days + 719468
  let era := shifted / 146097
  let dayOfEra := (shifted % 146097).toNat
  let yearOfEra := (dayOfEra - dayOfEra / 1460 + dayOfEra / 36524 - dayOfEra / 146096) / 365
  let dayOfYear := dayOfEra - (365 * yearOfEra + yearOfEra / 4 - yearOfEra / 100)
  let shiftedMonth := (5 * dayOfYear + 2) / 153
  let day := dayOfYear - (153 * shiftedMonth + 2) / 5 + 1
  let month := if shiftedMonth < 10 then shiftedMonth + 3 else shiftedMonth - 9
  ⟨era * 400 + yearOfEra + (if month ≤ 2 then 1 else 0), month, day⟩

/-- Abbreviated names of the days of a week, Monday first. -/
def weekdayNames : List String := ["Mon", "Tue", "Wed", "Thu", "Fri", "Sat", "Sun"]

/-- Abbreviated names of the months. -/
def monthNames : List String :=
  ["Jan", "Feb", "Mar", "Apr", "May", "Jun", "Jul", "Aug", "Sep", "Oct", "Nov", "Dec"]

/-- Day of the week of a count of days, with Monday as zero. -/
def weekday (days : Int) : Nat := ((days + 3) % 7).toNat

/-- Seconds of a day. -/
def daySeconds : Int := 86400

/-- First second of an instant. -/
def firstSecond : Int := (Date.mk firstYear 1 1).toDays * daySeconds

/-- Last second of an instant. -/
def lastSecond : Int := (Date.mk lastYear 12 31).toDays * daySeconds + (daySeconds - 1)

/-- The bounds of an instant in seconds. -/
theorem instant_bounds : firstSecond = -8334601228800 ∧ lastSecond = 8210266876799 := by decide

end Ancestry.Calendar
