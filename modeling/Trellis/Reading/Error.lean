import Trellis.Location
import Trellis.Markup.Error
import Trellis.Schema.Declaration

/-!
What a read can end with instead of a graph.  Whatever goes wrong first is what is reported.
-/

namespace Trellis.Reading

open Markup (MarkupError)
open Schema (ScalarType)

inductive ReadError where
  | markup (error : MarkupError)
  | notUtf8
  | unexpectedRoot (expected found : String) (location : Location)
  /-- The document ends before its first element. -/
  | noElement (expected : String) (location : Location)
  | duplicateElement (tag : String) (location : Location)
  | unknownElement (tag : String) (location : Location)
  | unknownAttribute (name tag : String) (location : Location)
  | coercion (field : String) (expected : ScalarType) (text : String) (location : Location)
  | missingAttribute (name tag : String) (location : Location)
  | unexpectedText (location : Location)
  | unexpectedElement (tag : String) (location : Location)
  /-- The document ends inside an element. -/
  | unexpectedEnd (location : Location)
  | unknownClass (name : String)
  | abstractClass (name : String)
  | notStandalone (name : String)
  deriving DecidableEq, Repr

namespace ReadError

def location? : ReadError → Option Location
  | unexpectedRoot _ _ location => some location
  | noElement _ location => some location
  | duplicateElement _ location => some location
  | unknownElement _ location => some location
  | unknownAttribute _ _ location => some location
  | coercion _ _ _ location => some location
  | missingAttribute _ _ location => some location
  | unexpectedText location => some location
  | unexpectedElement _ location => some location
  | unexpectedEnd location => some location
  | markup _ | notUtf8 | unknownClass _ | abstractClass _ | notStandalone _ => none

def message : ReadError → String
  | markup (.attributes error) => "XML attribute error: " ++ error.message
  | markup error => "XML parsing error: " ++ error.message
  | notUtf8 => "IO error: stream did not contain valid UTF-8"
  | unexpectedRoot expected found location =>
      "Expected root element '" ++ expected ++ "' but found '" ++ found ++ "' at "
        ++ location.describe
  | noElement expected _ =>
      "Expected root element '" ++ expected
        ++ "' but found no element at all: invalid XML document"
  | duplicateElement tag location => "Duplicated tag: '" ++ tag ++ "' at " ++ location.describe
  | unknownElement tag location => "Unrecognised tag: '" ++ tag ++ "' at " ++ location.describe
  | unknownAttribute name tag location =>
      "Unknown attribute '" ++ name ++ "' for tag '" ++ tag ++ "' at " ++ location.describe
  | coercion field expected text location =>
      "Unable to parse element '" ++ field ++ "', must be " ++ expected.description ++ " (got '"
        ++ text ++ "') at " ++ location.describe
  | missingAttribute name tag location =>
      "Missing required value for attribute '" ++ name ++ "' of tag '" ++ tag ++ "' at "
        ++ location.describe
  | unexpectedText location =>
      "Expected a start or end tag but found text at " ++ location.describe
  | unexpectedElement tag location =>
      "Unexpected element '" ++ tag ++ "' inside text-only content at " ++ location.describe
  | unexpectedEnd location => "Unexpected end of XML at " ++ location.describe
  | unknownClass name => "Unknown class '" ++ name ++ "'"
  | abstractClass name => "Class '" ++ name ++ "' is abstract and cannot be instantiated"
  | notStandalone name => "Class '" ++ name ++ "' cannot be read as a document"

end ReadError

end Trellis.Reading
