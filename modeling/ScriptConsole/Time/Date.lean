/-!
# Calendar dates

Dates of the Gregorian calendar, extended without limit in both directions, and
their count in days. Day zero is the first of January of year one.
-/

namespace ScriptConsole.Time

/-- A calendar date. -/
structure Date where
  year : Int
  month : Nat
  day : Nat
deriving DecidableEq, Repr

/-- Every fourth year is a leap year, but of the full centuries only every
fourth. -/
def isLeapYear (year : Int) : Bool :=
  year % 4 = 0 && (year % 100 ≠ 0 || year % 400 = 0)

def daysInMonth (year : Int) (month : Nat) : Nat :=
  match month with
  | 2 => if isLeapYear year then 29 else 28
  | 4 | 6 | 9 | 11 => 30
  | _ => 31

/-- The day number of the first day of a year. -/
def daysBeforeYear (year : Int) : Int :=
  let past := year - 1
  365 * past + past / 4 - past / 100 + past / 400

/-- The days of a year that lie before a month. -/
def daysBeforeMonth (year : Int) : (month : Nat) -> Nat
  | 0 | 1 => 0
  | month + 2 => daysBeforeMonth year (month + 1) + daysInMonth year (month + 1)

namespace Date

/-- The date exists in the calendar. -/
def isValid (date : Date) : Bool :=
  1 ≤ date.month && date.month ≤ 12 && 1 ≤ date.day && date.day ≤ daysInMonth date.year date.month

/-- The count of days from the first of January of year one. -/
def dayNumber (date : Date) : Int :=
  daysBeforeYear date.year + daysBeforeMonth date.year date.month + date.day - 1

/-- The year of a day number. The mean length of a year gives it up to one. -/
def yearOfDay (dayNumber : Int) : Int :=
  let guess := dayNumber * 400 / 146097 + 1
  if dayNumber < daysBeforeYear guess then guess - 1
  else if daysBeforeYear (guess + 1) ≤ dayNumber then guess + 1
  else guess

/-- Go through the months of a year from `month` on, at most `remaining` of them
further, to the one that holds the day `offset` days later. -/
def monthOfDay (year : Int) : (remaining : Nat) -> (month offset : Nat) -> Date
  | 0, month, offset => ⟨year, month, offset + 1⟩
  | remaining + 1, month, offset =>
    if offset < daysInMonth year month then ⟨year, month, offset + 1⟩
    else monthOfDay year remaining (month + 1) (offset - daysInMonth year month)

/-- The date of a day number. -/
def ofDayNumber (dayNumber : Int) : Date :=
  let year := yearOfDay dayNumber
  monthOfDay year 11 1 (dayNumber - daysBeforeYear year).toNat

end Date

end ScriptConsole.Time
