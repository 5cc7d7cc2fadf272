/-!
Days of the proleptic Gregorian calendar.

A day is a year and the rank of the day in it.  Days are also counted, from the first of January
1970, which is day zero and a Thursday; the count is what weeks and weekdays go by.
-/

namespace Trellis.Calendar

def isLeap (year : Int) : Bool :=
  year % 4 == 0 && (year % 100 != 0 || year % 400 == 0)

def yearLength (year : Int) : Nat :=
  if isLeap year then 366 else 365

def monthLengths (year : Int) : List Nat :=
  [31, if isLeap year then 29 else 28, 31, 30, 31, 30, 31, 31, 30, 31, 30, 31]

def firstYear : Int := -262143

def lastYear : Int := 262142

structure Date where
  year : Int
  ordinal : Nat
  ordinal_pos : 1 ≤ ordinal
  ordinal_le : ordinal ≤ yearLength year
  firstYear_le : firstYear ≤ year
  le_lastYear : year ≤ lastYear
  deriving DecidableEq, Repr

def Date.ofOrdinal? (year : Int) (ordinal : Nat) : Option Date :=
  if h : (1 ≤ ordinal ∧ ordinal ≤ yearLength year) ∧ firstYear ≤ year ∧ year ≤ lastYear then
    some ⟨year, ordinal, h.1.1, h.1.2, h.2.1, h.2.2⟩
  else none

/-! ### Months -/

def daysBeforeMonth (year : Int) (month : Nat) : Nat :=
  ((monthLengths year).take (month - 1)).foldr (· + ·) 0

def Date.ofMonthDay? (year : Int) (month day : Nat) : Option Date :=
  match month, (monthLengths year)[month - 1]? with
  | _ + 1, some length =>
      if 1 ≤ day && day ≤ length then Date.ofOrdinal? year (daysBeforeMonth year month + day) else none
  | _, _ => none

/-- Counts `day` off the months from `month` on, whose lengths are given. -/
def monthDayFrom (month : Nat) (day : Nat) : List Nat → Nat × Nat
  | [] => (month, day)
  | length :: rest => if day ≤ length then (month, day) else monthDayFrom (month + 1) (day - length) rest

def Date.monthDay (date : Date) : Nat × Nat :=
  monthDayFrom 1 date.ordinal (monthLengths date.year)

def Date.month (date : Date) : Nat :=
  date.monthDay.1

def Date.day (date : Date) : Nat :=
  date.monthDay.2

def Date.quarter (date : Date) : Nat :=
  (date.month - 1) / 3 + 1

/-! ### Counted days -/

/-- How many days come before the year, counted from the first day of the year one. -/
def daysBeforeYear (year : Int) : Int :=
  let past := year - 1
  365 * past + past / 4 - past / 100 + past / 400

def epochDay : Int := 719162

def yearStart (year : Int) : Int :=
  daysBeforeYear year - epochDay

def Date.dayNumber (date : Date) : Int :=
  yearStart date.year + date.ordinal - 1

/-- The year in which the counted day lies.  The mean length of a year gives a guess that is off by
one at most. -/
def yearOfDay (number : Int) : Int :=
  let guess := (number + epochDay) * 400 / 146097 + 1
  if number < yearStart guess then guess - 1
  else if yearStart (guess + 1) ≤ number then guess + 1
  else guess

def Date.ofDayNumber? (number : Int) : Option Date :=
  let year := yearOfDay number
  Date.ofOrdinal? year (number - yearStart year + 1).toNat

/-! ### Weeks -/

/-- The weekday of a counted day, Monday being zero. -/
def weekdayOfDay (number : Int) : Nat :=
  ((number + 3) % 7).toNat

def Date.weekday (date : Date) : Nat :=
  weekdayOfDay date.dayNumber

def daysSince (weekday start : Nat) : Nat :=
  (weekday + 7 - start) % 7

/-- The number of the week in the year if weeks begin on `start` and days before the first such
weekday belong to week zero. -/
def Date.weekFrom (date : Date) (start : Nat) : Nat :=
  (date.ordinal + 6 - daysSince date.weekday start) / 7

/-- The day of the year with a week, counted as in `Date.weekFrom`, and a weekday. -/
def Date.ofWeek? (year : Int) (week weekday start : Nat) : Option Date :=
  let firstStart := 1 + daysSince start (weekdayOfDay (yearStart year))
  let ordinal := (firstStart : Int) + (week - 1) * 7 + daysSince weekday start
  if 0 < ordinal then Date.ofOrdinal? year ordinal.toNat else none

/-- The year and the number of the week, from Monday to Sunday, that belongs to the year in which
its Thursday lies. -/
def isoWeekOfDay (number : Int) : Int × Nat :=
  let thursday := number - weekdayOfDay number + 3
  let year := yearOfDay thursday
  (year, ((thursday - yearStart year) / 7 + 1).toNat)

def Date.isoWeek (date : Date) : Int × Nat :=
  isoWeekOfDay date.dayNumber

/-- The day with an ISO week and a weekday; the fourth of January always lies in week one. -/
def Date.ofIsoWeek? (year : Int) (week weekday : Nat) : Option Date :=
  let fourth := yearStart year + 3
  let number := fourth - weekdayOfDay fourth + (week - 1) * 7 + weekday
  if isoWeekOfDay number = (year, week) then Date.ofDayNumber? number else none

example : (Date.ofMonthDay? 2024 2 29).map Date.ordinal = some 60 := by decide
example : (Date.ofMonthDay? 2023 2 29) = none := by decide
example : (Date.ofDayNumber? 19783).map Date.monthDay = some (3, 1) := by decide +kernel

end Trellis.Calendar
