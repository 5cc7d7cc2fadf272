import Trellis.Calendar.Date
import Trellis.Number.Decimal

/-!
A day with a time on it, to the nanosecond.

A leap second is the second before it with a nanosecond count of a whole second more; it is written
as second sixty.
-/

namespace Trellis.Calendar

open Number (paddedDigits)

def secondsPerDay : Nat := 86400

def nanosecondsPerSecond : Nat := 1000000000

structure TimeOfDay where
  second : Nat
  /-- Beyond a whole second in a leap second. -/
  nanosecond : Nat
  second_lt : second < secondsPerDay
  nanosecond_lt : nanosecond < 2 * nanosecondsPerSecond
  deriving DecidableEq, Repr

def TimeOfDay.of? (second nanosecond : Nat) : Option TimeOfDay :=
  if h : second < secondsPerDay ∧ nanosecond < 2 * nanosecondsPerSecond then
    some ⟨second, nanosecond, h.1, h.2⟩
  else none

def TimeOfDay.midnight : TimeOfDay :=
  ⟨0, 0, by decide, by decide⟩

structure DateTime where
  date : Date
  time : TimeOfDay
  deriving DecidableEq, Repr

/-! ### The count of seconds and milliseconds -/

/-- Whole seconds since the beginning of 1970; a leap second counts as the second before it. -/
def DateTime.secondsSinceEpoch (moment : DateTime) : Int :=
  moment.date.dayNumber * secondsPerDay + moment.time.second

def DateTime.ofSeconds? (seconds : Int) (nanosecond : Nat) : Option DateTime := do
  let date ← Date.ofDayNumber? (seconds / secondsPerDay)
  let time ← TimeOfDay.of? (seconds % secondsPerDay).toNat nanosecond
  return { date, time }

/-- The moment a number of milliseconds after the beginning of 1970, or before it.  The fraction
counts forward from the second below. -/
def DateTime.ofMilliseconds? (milliseconds : Int) : Option DateTime :=
  DateTime.ofSeconds? (milliseconds / 1000) ((milliseconds % 1000).toNat * 1000000)

/-! ### Writing -/

/-- Four digits from year zero to 9999, otherwise a sign and at least four. -/
def yearText (year : Int) : List Char :=
  if 0 ≤ year && year ≤ 9999 then paddedDigits 4 year.toNat
  else (if year < 0 then '-' else '+') :: paddedDigits 4 year.natAbs

def Date.text (date : Date) : List Char :=
  yearText date.year ++ '-' :: paddedDigits 2 date.month ++ '-' :: paddedDigits 2 date.day

/-- A fraction of a second to as few groups of three digits as hold it. -/
def fractionText (nanosecond : Nat) : List Char :=
  if nanosecond = 0 then []
  else if nanosecond % 1000000 = 0 then '.' :: paddedDigits 3 (nanosecond / 1000000)
  else if nanosecond % 1000 = 0 then '.' :: paddedDigits 6 (nanosecond / 1000)
  else '.' :: paddedDigits 9 nanosecond

def TimeOfDay.text (time : TimeOfDay) : List Char :=
  let second := time.second % 60 + time.nanosecond / nanosecondsPerSecond
  paddedDigits 2 (time.second / 3600) ++ ':' :: paddedDigits 2 (time.second / 60 % 60)
    ++ ':' :: paddedDigits 2 second ++ fractionText (time.nanosecond % nanosecondsPerSecond)

def DateTime.text (moment : DateTime) : String :=
  String.ofList (moment.date.text ++ ' ' :: moment.time.text)

example : (DateTime.ofMilliseconds? 1709296205250).map DateTime.text = some "2024-03-01 12:30:05.250" := by
  decide +kernel
example : (DateTime.ofMilliseconds? (-1)).map DateTime.text = some "1969-12-31 23:59:59.999" := by
  decide +kernel

end Trellis.Calendar
