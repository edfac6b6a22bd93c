/-
Module: MeterRadio.Time.Calendar
Purpose: Dates of the proleptic Gregorian calendar and the days between them.
Main exports: Time.Date, Time.Date.ofDays, Time.Date.toDays, Time.Date.isValid
-/

namespace MeterRadio.Time

/-- A date of the proleptic Gregorian calendar. -/
structure Date where
  year : Int
  month : Nat
  day : Nat
deriving Repr, DecidableEq

namespace Date

/-!
Years are counted from March here, so that a leap day is the last day of its year. An era is 400
years, 146097 days; the first of March of year 0 lies 719468 days before 1970.
-/

/-- Days of the years before the year `y` of an era. -/
def daysBefore (y : Nat) : Nat := 365 * y + y / 4 - y / 100

/-- The date that lies so many days after the first of January 1970. -/
def ofDays (days : Int) : Date :=
  let shifted := days + 719468
  let era := shifted / 146097
  let dayOfEra := (shifted % 146097).toNat
  let yearOfEra := (dayOfEra - dayOfEra / 1460 + dayOfEra / 36524 - dayOfEra / 146096) / 365
  let dayOfYear := dayOfEra - daysBefore yearOfEra
  let monthFromMarch := (5 * dayOfYear + 2) / 153
  let month := if monthFromMarch < 10 then monthFromMarch + 3 else monthFromMarch - 9
  { year := era * 400 + yearOfEra + (if month ≤ 2 then 1 else 0)
    month := month
    day := dayOfYear - (153 * monthFromMarch + 2) / 5 + 1 }

/-- Days from the first of January 1970 to a date. -/
def toDays (d : Date) : Int :=
  let year := if d.month ≤ 2 then d.year - 1 else d.year
  let era := year / 400
  let yearOfEra := (year % 400).toNat
  let monthFromMarch := if d.month ≤ 2 then d.month + 9 else d.month - 3
  let dayOfYear := (153 * monthFromMarch + 2) / 5 + (d.day - 1)
  era * 146097 + (daysBefore yearOfEra + dayOfYear : Nat) - 719468

/-- Whether a year has a leap day. -/
def isLeap (year : Int) : Bool :=
  year % 4 == 0 && (year % 100 != 0 || year % 400 == 0)

/-- Days in a month. -/
def daysIn (year : Int) (month : Nat) : Nat :=
  if month = 2 then (if isLeap year then 29 else 28)
  else if month = 4 ∨ month = 6 ∨ month = 9 ∨ month = 11 then 30
  else 31

/-- First year that can be written. -/
def firstYear : Int := -262143

/-- Last year that can be written. -/
def lastYear : Int := 262142

/-- Whether the calendar has the date, within the years that can be written. -/
def isValid (d : Date) : Bool :=
  decide (firstYear ≤ d.year) && decide (d.year ≤ lastYear)
    && decide (1 ≤ d.month) && decide (d.month ≤ 12)
    && decide (1 ≤ d.day) && decide (d.day ≤ daysIn d.year d.month)

end Date
end MeterRadio.Time
