import Trellis.Text.Quoted

/-!
What can be wrong with a document as markup, whatever it is about.

Positions in these errors count bytes, from the beginning of the tag or of the text concerned.
-/

namespace Trellis.Markup

inductive Construct where
  | element
  | comment
  | cdata
  | doctype
  | declaration
  /-- What follows an exclamation mark, before it can be told apart. -/
  | bang
  deriving DecidableEq, Repr

def Construct.label : Construct → String
  | .element => "Element"
  | .comment => "Comment"
  | .cdata => "CData"
  | .doctype => "DOCTYPE"
  | .declaration => "XmlDecl"
  | .bang => "Bang"

inductive ReferenceError where
  | unterminated (start stop : Nat)
  | unknown (start stop : Nat) (name : String)
  | null (start stop : Nat)
  | longHexadecimal
  | longDecimal
  | notHexadecimal (found : Char)
  | notDecimal (found : Char)
  | notCharacter (code : Nat)
  deriving DecidableEq, Repr

def rangeMessage (start stop : Nat) (problem : String) : String :=
  "Error while escaping character at range " ++ toString start ++ ".." ++ toString stop ++ ": "
    ++ problem

def ReferenceError.message : ReferenceError → String
  | .unterminated start stop => rangeMessage start stop "Cannot find ';' after '&'"
  | .unknown start stop name =>
      rangeMessage start stop ("Unrecognized escape symbol: " ++ Text.quoted name)
  | .null start stop => rangeMessage start stop "Null character entity not allowed"
  | .longHexadecimal => "Cannot convert hexadecimal to utf8"
  | .longDecimal => "Cannot convert decimal to utf8"
  | .notHexadecimal found =>
      "'" ++ String.singleton found ++ "' is not a valid hexadecimal character"
  | .notDecimal found => "'" ++ String.singleton found ++ "' is not a valid decimal character"
  | .notCharacter code => "'" ++ toString code ++ "' is not a valid codepoint"

inductive AttributeError where
  | expectedEquals (position : Nat)
  | expectedValue (position : Nat)
  | unquotedValue (position : Nat)
  | unclosedQuote (position : Nat) (quote : Char)
  | repeated (position previous : Nat)
  deriving DecidableEq, Repr

def AttributeError.message : AttributeError → String
  | .expectedEquals position =>
      located position "attribute key must be directly followed by `=` or space"
  | .expectedValue position => located position "`=` must be followed by an attribute value"
  | .unquotedValue position => located position "attribute value must be enclosed in `\"` or `'`"
  | .unclosedQuote position quote =>
      located position ("missing closing quote `" ++ String.singleton quote ++ "` in attribute value")
  | .repeated position previous =>
      located position ("duplicated attribute, previous declaration at position " ++ toString previous)
where
  located (position : Nat) (problem : String) : String :=
    "position " ++ toString position ++ ": " ++ problem

inductive MarkupError where
  | unfinished (construct : Construct)
  | unknownBang (found : Char)
  | emptyDoctype
  /-- The end tag of another element than the one that is open, or of none. -/
  | mismatchedEnd (expected found : String)
  | reference (error : ReferenceError)
  | attributes (error : AttributeError)
  deriving DecidableEq, Repr

def MarkupError.message : MarkupError → String
  | .unfinished construct => "Unexpected EOF during reading " ++ construct.label
  | .unknownBang found =>
      "Only Comment (`--`), CDATA (`[CDATA[`) and DOCTYPE (`DOCTYPE`) nodes can start with a '!', but symbol `"
        ++ String.singleton found ++ "` found"
  | .emptyDoctype => "DOCTYPE declaration must not be empty"
  | .mismatchedEnd expected found =>
      "Expecting </" ++ expected ++ "> found </" ++ found ++ ">"
  | .reference error => error.message
  | .attributes error => error.message

end Trellis.Markup
