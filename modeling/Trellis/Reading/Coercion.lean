import Trellis.Calendar.Reading
import Trellis.Graph.Value
import Trellis.Reading.Error
import Trellis.Text.Blank

/-!
From texts to typed scalars.

Booleans and texts never fail.  Numbers and characters fail in a strict read and become zero in a
lenient one.  Dates fail in both.
-/

namespace Trellis.Reading

open Trellis.Graph (Value)
open Number (Binary FixedInt)
open Schema (Field ScalarType)

def isTrue (text : String) : Bool :=
  text.toList.map Char.toLower == "true".toList

/-- An empty text stands for the default, which is false if there is none. -/
def readBoolean (default : Option String) (text : String) : Bool :=
  isTrue (if text.isEmpty then Text.trim (default.getD "") else text)

/-- The text of a field as it counts: without the blanks around it, if the field says so. -/
def fieldText (field : Field) (raw : String) : String :=
  if field.trims then Text.trim raw else raw

def scalarOf? (field : Field) (type : ScalarType) (text : String) : Option Value :=
  match type with
  | .boolean => some (.boolean (readBoolean field.default text))
  | .character => text.toList.head?.map .character
  | .integer width => (FixedInt.read? width text).map .integer
  | .floating precision => (precision.read? text).map (.floating precision)
  | .text => some (.text text)
  | .date => (Calendar.readMoment? text (field.format.getD Calendar.defaultPattern)).map .date
  | .tree => none

/-- What a lenient read takes instead of a text it cannot read. -/
def fallback? : ScalarType → Option Value
  | .character => some (.character '\x00')
  | .integer width => some (.integer (.zero width))
  | .floating precision => some (.floating precision (.zero precision))
  | _ => none

def coerce (strict : Bool) (field : Field) (type : ScalarType) (raw : String) (location : Location) :
    Except ReadError Value :=
  let text := fieldText field raw
  match (scalarOf? field type text).or (if strict then none else fallback? type) with
  | some value => .ok value
  | none => .error (.coercion field.name type text location)

end Trellis.Reading
