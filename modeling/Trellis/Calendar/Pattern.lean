import Trellis.Text.Blank

/-!
Patterns that say how a date is written: literal characters, blanks, and specifiers, which begin
with a percent sign and name a part of a date or a row of parts.

A numeric specifier may carry a mark for how to fill up its digits, which makes no difference to
reading.
-/

namespace Trellis.Calendar

inductive Part where
  | year
  | century
  | yearOfCentury
  | isoYear
  | isoYearOfCentury
  | quarter
  | month
  | day
  | weekFromSunday
  | weekFromMonday
  | isoWeek
  /-- Sunday is zero. -/
  | weekdayFromSunday
  /-- Monday is one. -/
  | weekdayFromMonday
  | dayOfYear
  | hour
  | hourOfHalf
  | minute
  | second
  | nanosecond
  | timestamp
  deriving DecidableEq, Repr

def Part.width? : Part → Option Nat
  | .timestamp => none
  | .nanosecond => some 9
  | .year | .isoYear => some 4
  | .dayOfYear => some 3
  | .quarter | .weekdayFromSunday | .weekdayFromMonday => some 1
  | _ => some 2

/-- Whether the part may have a sign, which lifts the limit on its digits. -/
def Part.isSigned : Part → Bool
  | .year | .isoYear => true
  | _ => false

inductive Item where
  | literal (c : Char)
  | blanks
  | number (part : Part)
  /-- A month by the first three letters of its name; `long` lets the rest follow. -/
  | monthName (long : Bool)
  | weekdayName (long : Bool)
  | half
  /-- A point and the digits of a fraction of a second, or nothing. -/
  | fraction
  | fractionAfterPoint (digits : Nat)
  | fractionDigits (digits : Nat)
  | zoneName
  /-- The distance from universal time, in hours and minutes.  With `zulu` it may be a `z`, with
  `minutesOptional` it may end after the hours. -/
  | offset (zulu minutesOptional : Bool)
  | timeMark
  | universalOffset
  deriving DecidableEq, Repr

abbrev Pattern := List Item

namespace Pattern

def parted (separator : Char) : List Part → Pattern
  | [] => []
  | [part] => [.number part]
  | part :: rest => .number part :: .literal separator :: parted separator rest

def clock : Pattern :=
  parted ':' [.hour, .minute, .second]

def ofLetter? : Char → Option Pattern
  | 'A' => some [.weekdayName true]
  | 'B' => some [.monthName true]
  | 'C' => some [.number .century]
  | 'D' => some (parted '/' [.month, .day, .yearOfCentury])
  | 'F' => some (parted '-' [.year, .month, .day])
  | 'G' => some [.number .isoYear]
  | 'H' => some [.number .hour]
  | 'I' => some [.number .hourOfHalf]
  | 'M' => some [.number .minute]
  | 'P' => some [.half]
  | 'R' => some (parted ':' [.hour, .minute])
  | 'S' => some [.number .second]
  | 'T' => some clock
  | 'U' => some [.number .weekFromSunday]
  | 'V' => some [.number .isoWeek]
  | 'W' => some [.number .weekFromMonday]
  | 'X' => some clock
  | 'Y' => some [.number .year]
  | 'Z' => some [.zoneName]
  | 'a' => some [.weekdayName false]
  | 'b' => some [.monthName false]
  | 'c' => some ([.weekdayName false, .blanks, .monthName false, .blanks, .number .day, .blanks]
      ++ clock ++ [.blanks, .number .year])
  | 'd' => some [.number .day]
  | 'e' => some [.number .day]
  | 'f' => some [.number .nanosecond]
  | 'g' => some [.number .isoYearOfCentury]
  | 'h' => some [.monthName false]
  | 'j' => some [.number .dayOfYear]
  | 'k' => some [.number .hour]
  | 'l' => some [.number .hourOfHalf]
  | 'm' => some [.number .month]
  | 'n' => some [.blanks]
  | 'p' => some [.half]
  | 'q' => some [.number .quarter]
  | 'r' => some (parted ':' [.hourOfHalf, .minute, .second] ++ [.blanks, .half])
  | 's' => some [.number .timestamp]
  | 't' => some [.blanks]
  | 'u' => some [.number .weekdayFromMonday]
  | 'v' => some [.number .day, .literal '-', .monthName false, .literal '-', .number .year]
  | 'w' => some [.number .weekdayFromSunday]
  | 'x' => some (parted '/' [.month, .day, .yearOfCentury])
  | 'y' => some [.number .yearOfCentury]
  | 'z' => some [.offset false false]
  | '+' => some ([.number .year, .blanks, .literal '-', .number .month, .blanks, .literal '-',
      .number .day, .timeMark, .number .hour, .blanks, .literal ':', .number .minute, .blanks,
      .literal ':', .number .second, .fraction, .blanks, .universalOffset])
  | '%' => some [.literal '%']
  | _ => none

inductive Expecting where
  | anything
  | specifier
  /-- A numeric specifier, after a mark for filling up. -/
  | filled
  /-- The one specifier with a second form, after the mark for it. -/
  | alternate
  | pointed
  /-- The letter that ends a fraction of so many digits. -/
  | fractionEnd (digits : Nat) (hasPoint : Bool)
  /-- The letter that ends an offset, after so many colons. -/
  | offsetEnd (colons : Nat)
  deriving DecidableEq, Repr

def fractionWidth? : Char → Option Nat
  | '3' => some 3
  | '6' => some 6
  | '9' => some 9
  | _ => none

/-- The items that one more character completes, and what may follow it. -/
def Expecting.step? : Expecting → Char → Option (Pattern × Expecting)
  | .anything, c =>
      if c = '%' then some ([], .specifier)
      else if Text.isBlank c then some ([.blanks], .anything)
      else some ([.literal c], .anything)
  | .specifier, c =>
      if c = '-' || c = '0' || c = '_' then some ([], .filled)
      else if c = '#' then some ([], .alternate)
      else if c = '.' then some ([], .pointed)
      else if c = ':' then some ([], .offsetEnd 1)
      else
        match fractionWidth? c with
        | some digits => some ([], .fractionEnd digits false)
        | none => (ofLetter? c).map (·, .anything)
  | .filled, c =>
      match ofLetter? c with
      | some [.number part] => some ([.number part], .anything)
      | _ => none
  | .alternate, c => if c = 'z' then some ([.offset true true], .anything) else none
  | .pointed, c =>
      if c = 'f' then some ([.fraction], .anything)
      else (fractionWidth? c).map fun digits => ([], .fractionEnd digits true)
  | .fractionEnd digits hasPoint, c =>
      if c = 'f' then
        some ([if hasPoint then .fractionAfterPoint digits else .fractionDigits digits], .anything)
      else none
  | .offsetEnd colons, c =>
      if c = 'z' then some ([.offset false false], .anything)
      else if c = ':' && colons < 3 then some ([], .offsetEnd (colons + 1))
      else none

def readFrom? (expecting : Expecting) : List Char → Option Pattern
  | [] => if expecting = .anything then some [] else none
  | c :: rest => do
      let (items, expecting) ← expecting.step? c
      return items ++ (← readFrom? expecting rest)

/-- The items that a pattern stands for; nothing if it is malformed anywhere. -/
def read? (text : String) : Option Pattern :=
  readFrom? .anything text.toList

example : read? "%Y-%-m %:z" = some [.number .year, .literal '-', .number .month, .blanks,
    .offset false false] := by decide +kernel
example : read? "%-F" = none ∧ read? "%.4f" = none ∧ read? "%" = none := by decide +kernel

end Pattern

end Trellis.Calendar
