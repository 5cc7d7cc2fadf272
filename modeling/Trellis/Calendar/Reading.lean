import Trellis.Calendar.Fields
import Trellis.Calendar.Pattern
import Trellis.Number.FixedInt

/-!
Dates read from text by a pattern.

Every item of the pattern takes a piece off the front of the text and may give fields; at the end
nothing may be left.  Blanks before a number are passed over whether the pattern has blanks there or
not.
-/

namespace Trellis.Calendar

open Text (isBlank trimStart)

/-- What is left of the text, and the fields so far. -/
abbrev Progress := List Char × Fields

def greatestNumber : Nat := Nat.pow 2 63 - 1

/-- The number at the front of the text, of `width` digits at most. -/
def takeNumber? (width : Option Nat) (text : List Char) : Option (Nat × List Char) :=
  let all := text.takeWhile Char.isDigit
  let digits := match width with
    | some width => all.take width
    | none => all
  let value := Nat.ofDigitChars 10 digits 0
  if digits.isEmpty || greatestNumber < value then none else some (value, text.drop digits.length)

def takeChar? (c : Char) : List Char → Option (List Char)
  | [] => none
  | first :: rest => if first = c then some rest else none

def takeWord? (word text : List Char) : Option (List Char) :=
  if word.isPrefixOf (text.map Char.toLower) then some (text.drop word.length) else none

/-! ### Numeric parts -/

def Part.take? (part : Part) (text : List Char) : Option (Int × List Char) :=
  let unsigned (width : Option Nat) (text : List Char) : Option (Int × List Char) :=
    (takeNumber? width text).map fun (value, rest) => ((value : Int), rest)
  match part.isSigned, text with
  | true, '-' :: rest => (unsigned none rest).map fun (value, rest) => (-value, rest)
  | true, '+' :: rest => unsigned none rest
  | _, _ => unsigned part.width? text

def Part.bounds? : Part → Option (Int × Int)
  | .quarter => some (1, 4)
  | .month => some (1, 12)
  | .day => some (1, 31)
  | .weekFromSunday | .weekFromMonday => some (0, 53)
  | .isoWeek => some (1, 53)
  | .weekdayFromSunday => some (0, 6)
  | .weekdayFromMonday => some (1, 7)
  | .dayOfYear => some (1, 366)
  | .hour => some (0, 23)
  | .hourOfHalf => some (1, 12)
  | .minute => some (0, 59)
  | .second => some (0, 60)
  | .year | .century | .yearOfCentury | .isoYear | .isoYearOfCentury | .nanosecond | .timestamp => none

def Part.admits (part : Part) (value : Int) : Bool :=
  match part.bounds? with
  | some (least, greatest) => least ≤ value && value ≤ greatest
  | none => true

/-- The fields that the number of a part gives. -/
def Part.slots (part : Part) (value : Int) : List (Slot × Int) :=
  match part with
  | .year => [(.year, value)]
  | .century => [(.century, value)]
  | .yearOfCentury => [(.yearOfCentury, value)]
  | .isoYear => [(.isoYear, value)]
  | .isoYearOfCentury => [(.isoYearOfCentury, value)]
  | .quarter => [(.quarter, value)]
  | .month => [(.month, value)]
  | .day => [(.day, value)]
  | .weekFromSunday => [(.weekFromSunday, value)]
  | .weekFromMonday => [(.weekFromMonday, value)]
  | .isoWeek => [(.isoWeek, value)]
  | .weekdayFromSunday => [(.weekday, (value + 6) % 7)]
  | .weekdayFromMonday => [(.weekday, value - 1)]
  | .dayOfYear => [(.ordinal, value)]
  | .hour => [(.half, value / 12), (.hourOfHalf, value % 12)]
  | .hourOfHalf => [(.hourOfHalf, value % 12)]
  | .minute => [(.minute, value)]
  | .second => [(.second, value)]
  | .nanosecond => [(.nanosecond, value)]
  | .timestamp => [(.timestamp, value)]

def Fields.putAll? (fields : Fields) (given : List (Slot × Int)) : Option Fields :=
  given.foldlM (fun fields entry => fields.put? entry.1 entry.2) fields

/-! ### Names -/

def monthNames : List (List Char × List Char) :=
  [("jan".toList, "uary".toList), ("feb".toList, "ruary".toList), ("mar".toList, "ch".toList),
   ("apr".toList, "il".toList), ("may".toList, "".toList), ("jun".toList, "e".toList),
   ("jul".toList, "y".toList), ("aug".toList, "ust".toList), ("sep".toList, "tember".toList),
   ("oct".toList, "ober".toList), ("nov".toList, "ember".toList), ("dec".toList, "ember".toList)]

def weekdayNames : List (List Char × List Char) :=
  [("mon".toList, "day".toList), ("tue".toList, "sday".toList), ("wed".toList, "nesday".toList),
   ("thu".toList, "rsday".toList), ("fri".toList, "day".toList), ("sat".toList, "urday".toList),
   ("sun".toList, "day".toList)]

/-- The rank of the name at the front of the text, whose other letters may follow if `long`
holds. -/
def takeName? (names : List (List Char × List Char)) (long : Bool) (text : List Char) :
    Option (Nat × List Char) := do
  let rank ← names.findIdx? fun name => (takeWord? name.1 text).isSome
  let name ← names[rank]?
  let rest ← takeWord? name.1 text
  return (rank, if long then (takeWord? name.2 rest).getD rest else rest)

/-! ### Offsets -/

def takeTwoDigits? : List Char → Option (Nat × List Char)
  | tens :: ones :: rest =>
      if tens.isDigit && ones.isDigit then some (Nat.ofDigitChars 10 [tens, ones] 0, rest) else none
  | _ => none

def takeMinutes? (minutesOptional : Bool) (text : List Char) : Option (Nat × List Char) :=
  if minutesOptional && text.isEmpty then some (0, [])
  else (takeTwoDigits? text).filter fun (minutes, _) => minutes < 60

def takeHoursAndMinutes? (minutesOptional : Bool) (text : List Char) : Option (Int × List Char) := do
  let (hours, rest) ← takeTwoDigits? text
  let rest := rest.dropWhile fun c => c = ':' || isBlank c
  let (minutes, rest) ← takeMinutes? minutesOptional rest
  return (((hours * 60 + minutes) * 60 : Nat), rest)

def takeOffset? (zulu minutesOptional : Bool) : List Char → Option (Int × List Char)
  | [] => none
  | c :: rest =>
      if zulu && (c = 'z' || c = 'Z') then some (0, rest)
      else if c = '+' then takeHoursAndMinutes? minutesOptional rest
      else if c = '-' || c = '−' then
        (takeHoursAndMinutes? minutesOptional rest).map fun (seconds, rest) => (-seconds, rest)
      else none

/-! ### Items -/

/-- A fraction of a second in so many digits, as nanoseconds. -/
def nanosecondsOf (value digits : Nat) : Int :=
  (value * Nat.pow 10 (9 - digits) : Nat)

def takeFractionDigits? (digits : Nat) (text : List Char) : Option (Int × List Char) := do
  let (value, rest) ← takeNumber? (some digits) text
  if text.length - rest.length = digits then some (nanosecondsOf value digits, rest) else none

/-- The digits of a fraction, of which those after the ninth do not count. -/
def takeFraction? (text : List Char) : Option (Int × List Char) := do
  let (value, rest) ← takeNumber? (some 9) text
  return (nanosecondsOf value (text.length - rest.length), rest.dropWhile Char.isDigit)

/-- The piece of an item at the front of the text: the fields it gives, and the text after it. -/
def Item.take? (item : Item) (text : List Char) : Option (List (Slot × Int) × List Char) :=
  match item with
  | .literal c => (takeChar? c text).map ([], ·)
  | .blanks => some ([], trimStart text)
  | .number part =>
      match part.take? (trimStart text) with
      | some (value, rest) => if part.admits value then some (part.slots value, rest) else none
      | none => none
  | .monthName long =>
      (takeName? monthNames long text).map fun (rank, rest) => ([(.month, (rank : Int) + 1)], rest)
  | .weekdayName long =>
      (takeName? weekdayNames long text).map fun (rank, rest) => ([(.weekday, (rank : Int))], rest)
  | .half =>
      match takeWord? ['a', 'm'] text, takeWord? ['p', 'm'] text with
      | some rest, _ => some ([(.half, 0)], rest)
      | none, some rest => some ([(.half, 1)], rest)
      | none, none => none
  | .fraction =>
      match text with
      | '.' :: text => (takeFraction? text).map fun (value, rest) => ([(.nanosecond, value)], rest)
      | text => some ([], text)
  | .fractionAfterPoint digits =>
      match text with
      | '.' :: text =>
          (takeFractionDigits? digits text).map fun (value, rest) => ([(.nanosecond, value)], rest)
      | text => some ([], text)
  | .fractionDigits digits =>
      (takeFractionDigits? digits text).map fun (value, rest) => ([(.nanosecond, value)], rest)
  | .zoneName => some ([], text.dropWhile fun c => !isBlank c)
  | .offset zulu minutesOptional =>
      (takeOffset? zulu minutesOptional (trimStart text)).map fun (value, rest) =>
        ([(.offset, value)], rest)
  | .timeMark =>
      match text with
      | c :: rest => if c = 't' || c = 'T' || c = ' ' then some ([], rest) else none
      | [] => none
  | .universalOffset =>
      match takeWord? "utc".toList text with
      | some rest => some ([(.offset, 0)], rest)
      | none =>
          (takeOffset? true false text).map fun (value, rest) => ([(.offset, value)], rest)

def Pattern.take? : Pattern → Progress → Option Progress
  | [], progress => some progress
  | item :: items, (text, fields) => do
      let (given, rest) ← item.take? text
      let fields ← fields.putAll? given
      Pattern.take? items (rest, fields)

/-- The fields of a text that a pattern describes from its first character to its last. -/
def Pattern.fields? (pattern : Pattern) (text : String) : Option Fields :=
  match pattern.take? (text.toList, []) with
  | some ([], fields) => some fields
  | _ => none

/-! ### Dates -/

def defaultPattern : String := "%Y-%m-%dT%H:%M:%S%.3f"

/-- The word that stands in place of a pattern for milliseconds since the beginning of 1970. -/
def millisecondsPattern : String := "long"

/-- The moment written in a text.  If the fields give a day but no time, it is midnight of that
day. -/
def readMoment? (text pattern : String) : Option DateTime :=
  if pattern = millisecondsPattern then
    (Number.FixedInt.read? .long text).bind fun number => DateTime.ofMilliseconds? number.value
  else do
    let pattern ← Pattern.read? pattern
    let fields ← pattern.fields? text
    match fields.moment? with
    | some moment => some moment
    | none => fields.date.toOption.map fun date => ⟨date, .midnight⟩

example : (readMoment? "1 March 2024" "%e %B %Y").map DateTime.text = some "2024-03-01 00:00:00" := by
  decide +kernel

end Trellis.Calendar
