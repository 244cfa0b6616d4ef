/-!
# The Gregorian calendar

Dates of the proleptic Gregorian calendar, which extends its rules to all years before and after.

- `Date.isValid`: the dates that exist.
- `Date.dayNumber`: the number of days since the first of January 1970; earlier days count
  negative.
-/

namespace KeySharing

/-- A date by its year, month and day; years before year 1 are 0, -1 and so on. -/
structure Date where
  /-- The year. -/
  year : Int
  /-- The month, from 1. -/
  month : Nat
  /-- The day of the month, from 1. -/
  day : Nat
deriving DecidableEq

namespace Calendar

/-- Whether a year has a day more: every fourth year, but of the full centuries only every fourth. -/
def isLeap (year : Int) : Bool := year % 4 = 0 && (year % 100 != 0 || year % 400 = 0)

/-- The lengths of the twelve months. -/
def monthLengths (leap : Bool) : List Nat :=
  [31, if leap then 29 else 28, 31, 30, 31, 30, 31, 31, 30, 31, 30, 31]

/-- The number of days in a month; there are none in a month that does not exist. -/
def daysInMonth (year : Int) (month : Nat) : Nat :=
  if month = 0 then 0 else (monthLengths (isLeap year)).getD (month - 1) 0

/-- The number of days in the months of a year before the given one. -/
def daysBeforeMonth (year : Int) (month : Nat) : Nat :=
  ((monthLengths (isLeap year)).take (month - 1)).foldl (· + ·) 0

/-- The number of days from the first of January of year 1 to that of the given year. -/
def daysBeforeYear (year : Int) : Int :=
  365 * (year - 1) + (year - 1) / 4 - (year - 1) / 100 + (year - 1) / 400

end Calendar

namespace Date

/-- Whether the date exists. -/
def isValid (date : Date) : Bool :=
  1 ≤ date.day && date.day ≤ Calendar.daysInMonth date.year date.month

/-- The number of days since the first of January 1970. -/
def dayNumber (date : Date) : Int :=
  Calendar.daysBeforeYear date.year - Calendar.daysBeforeYear 1970 +
    Calendar.daysBeforeMonth date.year date.month + date.day - 1

end Date

end KeySharing
