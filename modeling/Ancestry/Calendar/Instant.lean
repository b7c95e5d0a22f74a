import Ancestry.Calendar.Date

/-!
# Instants

An instant counts seconds from the beginning of 1970, and carries the offset of the
clock that it was read from, in seconds east. The offset shifts what is printed and
nothing else.
-/

namespace Ancestry.Calendar

/-- A second in time and the offset of a clock. -/
structure Instant where
  seconds : Int
  offset : Int
  deriving DecidableEq, Repr, Inhabited

namespace Instant

/-- A number of at most two digits with a leading zero. -/
def twoDigits (value : Nat) : String := Text.padded 2 value

/-- An offset as a sign and four digits, seconds rounded to the nearest minute. -/
def zoneText (offset : Int) : String :=
  let minutes := (offset.natAbs + 30) / 60
  (if offset < 0 then "-" else "+") ++ twoDigits (minutes / 60) ++ twoDigits (minutes % 60)

/-- The offset in text. -/
def zone (instant : Instant) : String := zoneText instant.offset

/-- A year as four digits, with a sign when it needs more or is negative. -/
def yearText (year : Int) : String :=
  if year < 0 then "-" ++ Text.padded 4 year.natAbs
  else if year < 10000 then Text.padded 4 year.natAbs
  else "+" ++ Text.padded 4 year.natAbs

/-- Weekday, month, day, time of day, year and offset on the instant's own clock. -/
def readable (instant : Instant) : String :=
  let shown := instant.seconds + instant.offset
  let days := shown / daySeconds
  let second := (shown % daySeconds).toNat
  let date := Date.ofDays days
  weekdayNames.getD (weekday days) "" ++ " " ++ monthNames.getD (date.month - 1) "" ++ " " ++
    Text.digits 10 date.day ++ " " ++ twoDigits (second / 3600) ++ ":" ++
    twoDigits (second / 60 % 60) ++ ":" ++ twoDigits (second % 60) ++ " " ++
    yearText date.year ++ " " ++ instant.zone

end Instant

end Ancestry.Calendar
