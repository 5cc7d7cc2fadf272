import Trellis.Calendar.DateTime
import Trellis.OrderedMap

/-!
The fields of a date that a text has given, and the date they agree on.

A field is given once or several times with the same value.  Of the sets of fields that determine a
day the first complete one is used, and every other given field must agree with the day it yields.
-/

namespace Trellis.Calendar

/-- The independent fields.  An hour is kept as a half of the day and an hour in it, because a text
may give them apart; a weekday is counted from Monday. -/
inductive Slot where
  | year
  | century
  | yearOfCentury
  | isoYear
  /-- No specifier gives it; it lets the two kinds of year resolve alike. -/
  | isoCentury
  | isoYearOfCentury
  | quarter
  | month
  | day
  | weekFromSunday
  | weekFromMonday
  | isoWeek
  | weekday
  | ordinal
  | half
  | hourOfHalf
  | minute
  | second
  | nanosecond
  | timestamp
  | offset
  deriving DecidableEq, Repr

abbrev Fields := OrderedMap Slot Int

inductive Defect where
  | insufficient
  | contradictory
  deriving DecidableEq, Repr

def Fields.put? (fields : Fields) (slot : Slot) (value : Int) : Option Fields :=
  match fields.get? slot with
  | none => some (fields.set slot value)
  | some given => if given = value then some fields else none

/-- A given field is the value; one not given agrees with every value. -/
def Fields.agrees (fields : Fields) (slot : Slot) (value : Int) : Bool :=
  ((fields.get? slot).getD value) == value

/-! ### Years -/

/-- Whether a given century or year of the century is that of the year.  A negative year has
neither. -/
def Fields.agreesOnCentury (fields : Fields) (hundreds rest : Slot) (year : Int) : Bool :=
  if 0 ≤ year then fields.agrees hundreds (year / 100) && fields.agrees rest (year % 100)
  else !fields.contains hundreds && !fields.contains rest

/-- The year that is given whole, as a century and a year in it, or as two digits alone, which
belong to the hundred years from 1970 on. -/
def Fields.yearFrom (fields : Fields) (whole hundreds rest : Slot) : Except Defect (Option Int) :=
  match fields.get? whole, fields.get? hundreds, fields.get? rest with
  | some value, _, _ =>
      if fields.agreesOnCentury hundreds rest value then .ok (some value) else .error .contradictory
  | none, none, none => .ok none
  | none, some high, some low => .ok (some (high * 100 + low))
  | none, none, some low => .ok (some (low + if low < 70 then 2000 else 1900))
  | none, some _, none => .error .insufficient

/-! ### Days -/

def Fields.agreesOnMonthDay (fields : Fields) (date : Date) : Bool :=
  fields.agrees .year date.year
    && fields.agreesOnCentury .century .yearOfCentury date.year
    && fields.agrees .month date.month
    && fields.agrees .day date.day

def Fields.agreesOnIsoWeek (fields : Fields) (date : Date) : Bool :=
  fields.agrees .isoYear date.isoWeek.1
    && fields.agreesOnCentury .isoCentury .isoYearOfCentury date.isoWeek.1
    && fields.agrees .isoWeek date.isoWeek.2
    && fields.agrees .weekday date.weekday

def Fields.agreesOnOrdinal (fields : Fields) (date : Date) : Bool :=
  fields.agrees .ordinal date.ordinal
    && fields.agrees .weekFromSunday (date.weekFrom 6)
    && fields.agrees .weekFromMonday (date.weekFrom 0)

def Fields.candidate (fields : Fields) (year isoYear : Option Int) : Except Defect Date :=
  let day? : Option (Option Date) :=
    match year, fields.get? .month, fields.get? .day with
    | some year, some month, some day => some (Date.ofMonthDay? year month.toNat day.toNat)
    | _, _, _ => none
  let ordinal? : Option (Option Date) :=
    match year, fields.get? .ordinal with
    | some year, some ordinal => some (Date.ofOrdinal? year ordinal.toNat)
    | _, _ => none
  let week? (slot : Slot) (start : Nat) : Option (Option Date) :=
    match year, fields.get? slot, fields.get? .weekday with
    | some year, some week, some weekday => some (Date.ofWeek? year week.toNat weekday.toNat start)
    | _, _, _ => none
  let isoWeek? : Option (Option Date) :=
    match isoYear, fields.get? .isoWeek, fields.get? .weekday with
    | some year, some week, some weekday => some (Date.ofIsoWeek? year week.toNat weekday.toNat)
    | _, _, _ => none
  match [day?, ordinal?, week? .weekFromSunday 6, week? .weekFromMonday 0, isoWeek?].findSome? id with
  | none => .error .insufficient
  | some none => .error .contradictory
  | some (some date) => .ok date

def Fields.date (fields : Fields) : Except Defect Date := do
  let year ← fields.yearFrom .year .century .yearOfCentury
  let isoYear ← fields.yearFrom .isoYear .isoCentury .isoYearOfCentury
  let date ← fields.candidate year isoYear
  if fields.agreesOnMonthDay date && fields.agreesOnIsoWeek date && fields.agreesOnOrdinal date
      && fields.agrees .quarter date.quarter then
    return date
  else throw .contradictory

/-! ### Times -/

/-- The time that the fields give.  Seconds may be left out, but then no fraction of one may be
given.  Second sixty is a leap second. -/
def Fields.time (fields : Fields) : Except Defect TimeOfDay :=
  match fields.get? .half, fields.get? .hourOfHalf, fields.get? .minute with
  | some half, some hour, some minute =>
      let second := (fields.get? .second).getD 0
      let nanosecond := (fields.get? .nanosecond).getD 0
      if fields.contains .nanosecond && !fields.contains .second then .error .insufficient
      else
        let (second, nanosecond) :=
          if second = 60 then (59, nanosecond + nanosecondsPerSecond) else (second, nanosecond)
        match TimeOfDay.of? (((half * 12 + hour) * 60 + minute) * 60 + second).toNat nanosecond.toNat with
        | some time => .ok time
        | none => .error .contradictory
  | _, _, _ => .error .insufficient

/-! ### Moments -/

/-- Whether a given count of seconds is that of the moment; within a leap second it may be one
more. -/
def Fields.agreesOnTimestamp (fields : Fields) (moment : DateTime) : Bool :=
  match fields.get? .timestamp with
  | none => true
  | some given =>
      given == moment.secondsSinceEpoch
        || (nanosecondsPerSecond ≤ moment.time.nanosecond && given == moment.secondsSinceEpoch + 1)

/-- The moment with a given count of seconds, if the fields agree with it.  If they name second
sixty, the count may be that of the second before or after. -/
def Fields.fromTimestamp? (fields : Fields) (timestamp : Int) : Option DateTime := do
  let counted ← DateTime.ofSeconds? timestamp 0
  let (moment, fields) ←
    if fields.get? .second = some 60 then
      if counted.time.second % 60 = 59 then some (counted, fields)
      else if counted.time.second % 60 = 0 then
        (DateTime.ofSeconds? (timestamp - 1) 0).map (·, fields)
      else none
    else (fields.put? .second (counted.time.second % 60 : Nat)).map (counted, ·)
  let hour := moment.time.second / 3600
  let fields ← fields.put? .year moment.date.year
  let fields ← fields.put? .ordinal moment.date.ordinal
  let fields ← fields.put? .half (hour / 12 : Nat)
  let fields ← fields.put? .hourOfHalf (hour % 12 : Nat)
  let fields ← fields.put? .minute (moment.time.second / 60 % 60 : Nat)
  return { date := ← fields.date.toOption, time := ← fields.time.toOption }

/-- The moment that the fields agree on.  A count of seconds fills in what is missing. -/
def Fields.moment? (fields : Fields) : Option DateTime :=
  match fields.date, fields.time with
  | .ok date, .ok time =>
      if fields.agreesOnTimestamp ⟨date, time⟩ then some ⟨date, time⟩ else none
  | .error .contradictory, _ => none
  | _, .error .contradictory => none
  | _, _ => (fields.get? .timestamp).bind fields.fromTimestamp?

end Trellis.Calendar
