import UndoLog.Timestamp
import UndoLog.Text.Digits

/-!
# Timestamps as RFC 3339 text

Days since the epoch become a year, month and day of the proleptic Gregorian calendar. Years are
counted from March, so that the leap day is the last day of a year and every month but the last has
a length that the same formula gives.

The text is the date, a T, the time of day and the offset of UTC. A fraction has three, six or nine
digits, the fewest that lose nothing, and is left out when it is zero. A year outside 0 to 9999 has
a sign.
-/

namespace UndoLog

/-- A date of the proleptic Gregorian calendar, with a year zero; month and day count from 1. -/
structure CalendarDate where
  year : Int
  month : Nat
  day : Nat
  deriving DecidableEq, Repr

namespace CalendarDate

/-- Days from 0000-03-01 to 1970-01-01. -/
def epochDay : Int := 719468

/-- Days in four hundred years. -/
def daysInEra : Int := 146097

/-- The date a number of days after the epoch. -/
def ofEpochDay (n : Int) : CalendarDate :=
  let fromMarch := n + epochDay
  let era := fromMarch / daysInEra
  let dayOfEra := (fromMarch % daysInEra).toNat
  let yearOfEra := (dayOfEra - dayOfEra / 1460 + dayOfEra / 36524 - dayOfEra / 146096) / 365
  let dayOfYear := dayOfEra - (365 * yearOfEra + yearOfEra / 4 - yearOfEra / 100)
  let monthFromMarch := (5 * dayOfYear + 2) / 153
  let day := dayOfYear - (153 * monthFromMarch + 2) / 5 + 1
  let month := if monthFromMarch < 10 then monthFromMarch + 3 else monthFromMarch - 9
  let year := yearOfEra + era * 400 + (if month ≤ 2 then 1 else 0)
  { year, month, day }

end CalendarDate

/-- A time of day, to the second; the seconds are 60 in a leap second. -/
structure ClockTime where
  hour : Nat
  minute : Nat
  second : Nat
  deriving DecidableEq, Repr

namespace Timestamp

/-- The date in UTC. -/
def date (t : Timestamp) : CalendarDate := .ofEpochDay (t.seconds / 86400)

/-- The time of day in UTC. -/
def clock (t : Timestamp) : ClockTime :=
  let secondOfDay := (t.seconds % 86400).toNat
  { hour := secondOfDay / 3600
    minute := secondOfDay / 60 % 60
    second := secondOfDay % 60 + t.nanos / 1000000000 }

/-- A year: four digits from 0 to 9999, else a sign and at least four digits. -/
def yearText (year : Int) : String :=
  let digits := Decimal.padded 4 year.natAbs
  if year < 0 then "-" ++ digits
  else if 9999 < year then "+" ++ digits
  else digits

/-- The fraction of a second with its point, in the fewest of three, six or nine digits. -/
def fractionText (nanos : Nat) : String :=
  if nanos = 0 then ""
  else if nanos % 1000000 = 0 then "." ++ Decimal.padded 3 (nanos / 1000000)
  else if nanos % 1000 = 0 then "." ++ Decimal.padded 6 (nanos / 1000)
  else "." ++ Decimal.padded 9 nanos

/-- The timestamp as RFC 3339 text. -/
def rfc3339 (t : Timestamp) : String :=
  let d := t.date
  let c := t.clock
  yearText d.year ++ "-" ++ Decimal.padded 2 d.month ++ "-" ++ Decimal.padded 2 d.day ++ "T" ++
    Decimal.padded 2 c.hour ++ ":" ++ Decimal.padded 2 c.minute ++ ":" ++
    Decimal.padded 2 c.second ++ fractionText (t.nanos % 1000000000) ++ "+00:00"

end Timestamp
end UndoLog
