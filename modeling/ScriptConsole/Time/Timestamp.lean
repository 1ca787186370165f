import ScriptConsole.Time.Date

/-!
# Timestamps

A `Timestamp` is a moment of universal time to the nanosecond. Its text is the
date and the time joined by `T`, with as few of 0, 3, 6 or 9 fraction digits as
are exact, and a final `Z`.
-/

namespace ScriptConsole.Time

/-- A moment of universal time. Nanoseconds from `10 ^ 9` on belong to a leap
second, which follows the second that they are counted from. -/
structure Timestamp where
  /-- Seconds since the start of day zero. -/
  second : Int
  nanosecond : Nat
deriving DecidableEq, Repr

/-- The first year of which dates are kept. -/
def firstYear : Int := -262143

/-- The last year of which dates are kept. -/
def lastYear : Int := 262142

/-- The moment of a date and a time of day at an offset from universal time. -/
def Timestamp.ofCivil (date : Date) (secondOfDay : Nat) (nanosecond : Nat) (offset : Int) :
    Timestamp where
  second := date.dayNumber * 86400 + secondOfDay - offset
  nanosecond := nanosecond

/-- The calendar date of a moment. -/
def Timestamp.date (moment : Timestamp) : Date :=
  .ofDayNumber (moment.second / 86400)

/-- A whole number with at least `width` digits. -/
def paddedDigits (width value : Nat) : List Char :=
  let digits := Nat.toDigits 10 value
  List.replicate (width - digits.length) '0' ++ digits

/-- Four digits for the years from 0 to 9999, and a sign before at least four
digits for all others. -/
def yearText (year : Int) : List Char :=
  let digits := paddedDigits 4 year.natAbs
  if year < 0 then '-' :: digits
  else if 9999 < year then '+' :: digits
  else digits

/-- A point and as few of 3, 6 or 9 digits as are exact, or nothing if there is
no fraction. -/
def fractionText (nanosecond : Nat) : List Char :=
  if nanosecond = 0 then []
  else if nanosecond % 1000000 = 0 then '.' :: paddedDigits 3 (nanosecond / 1000000)
  else if nanosecond % 1000 = 0 then '.' :: paddedDigits 6 (nanosecond / 1000)
  else '.' :: paddedDigits 9 nanosecond

namespace Timestamp

/-- The text of a moment in universal time. -/
def characters (moment : Timestamp) : List Char :=
  let date := moment.date
  let secondOfDay := (moment.second % 86400).toNat
  let second := secondOfDay % 60 + moment.nanosecond / 1000000000
  yearText date.year ++ '-' :: paddedDigits 2 date.month ++ '-' :: paddedDigits 2 date.day ++
    'T' :: paddedDigits 2 (secondOfDay / 3600) ++
    ':' :: paddedDigits 2 (secondOfDay / 60 % 60) ++
    ':' :: paddedDigits 2 second ++ fractionText (moment.nanosecond % 1000000000) ++ ['Z']

def text (moment : Timestamp) : String :=
  String.ofList moment.characters

end Timestamp

end ScriptConsole.Time
