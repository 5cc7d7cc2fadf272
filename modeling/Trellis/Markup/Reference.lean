import Trellis.Markup.Error
import Trellis.Markup.NamedCharacter
import Trellis.Text.Utf8

/-!
Texts and attribute values with references in them: `&name;`, `&#10;` and `&#xA;` stand for
characters.

Everything else stands for itself, white space and line ends included.
-/

namespace Trellis.Markup

open Text (leadByteChar utf8Length)

/-! ### References by number -/

def hexDigit? (c : Char) : Option Nat :=
  if c.isDigit then some (c.toNat - '0'.toNat)
  else if 'a' ≤ c && c ≤ 'f' then some (c.toNat - 'a'.toNat + 10)
  else if 'A' ≤ c && c ≤ 'F' then some (c.toNat - 'A'.toNat + 10)
  else none

def decimalDigit? (c : Char) : Option Nat :=
  if c.isDigit then some (c.toNat - '0'.toNat) else none

/-- The number that digits continue, or the first character that is no digit. -/
def readDigits (base : Nat) (digit? : Char → Option Nat) (value : Nat) :
    List Char → Except Char Nat
  | [] => .ok value
  | c :: rest =>
      match digit? c with
      | some digit => readDigits base digit? (value * base + digit) rest
      | none => .error c

/-- The code point written in the digits after the number sign.  No digits at all are zero. -/
def readCode : List Char → Except ReferenceError Nat
  | 'x' :: digits =>
      if 6 < utf8Length digits then .error .longHexadecimal
      else (readDigits 16 hexDigit? 0 digits).mapError fun c => .notHexadecimal (leadByteChar c)
  | digits =>
      if 7 < utf8Length digits then .error .longDecimal
      else (readDigits 10 decimalDigit? 0 digits).mapError fun c => .notDecimal (leadByteChar c)

def charOfCode (start stop code : Nat) : Except ReferenceError Char :=
  if code = 0 then .error (.null start stop)
  else if code.isValidChar then .ok (Char.ofNat code)
  else .error (.notCharacter code)

/-! ### Texts -/

/-- What a reference stands for, whose name, between the signs around it, begins and ends at the
given bytes. -/
def expand (extended : Bool) (start stop : Nat) (name : List Char) :
    Except ReferenceError (List Char) :=
  match name with
  | '#' :: digits => do
      let code ← readCode digits
      return [← charOfCode start stop code]
  | _ =>
      match namedText? extended (String.ofList name) with
      | some text => .ok text.toList
      | none => .error (.unknown (start + 1) stop (String.ofList name))

/-- A reference that has begun at a byte, with the characters of its name so far, last first. -/
structure OpenReference where
  start : Nat
  taken : List Char
  deriving DecidableEq, Repr

def decodeFrom (extended : Bool) (length : Nat) :
    (offset : Nat) → Option OpenReference → List Char → Except ReferenceError (List Char)
  | _, none, [] => .ok []
  | _, some reference, [] => .error (.unterminated reference.start length)
  | offset, none, c :: rest =>
      if c = '&' then decodeFrom extended length (offset + 1) (some ⟨offset, []⟩) rest
      else (c :: ·) <$> decodeFrom extended length (offset + c.utf8Size) none rest
  | offset, some reference, c :: rest =>
      if c = '&' then .error (.unterminated reference.start length)
      else if c = ';' then do
        let text ← expand extended reference.start offset reference.taken.reverse
        return text ++ (← decodeFrom extended length (offset + 1) none rest)
      else
        decodeFrom extended length (offset + c.utf8Size)
          (some ⟨reference.start, c :: reference.taken⟩) rest

/-- The characters that a text with references stands for. -/
def decode (extended : Bool) (text : List Char) : Except ReferenceError String :=
  String.ofList <$> decodeFrom extended (utf8Length text) 0 none text

example : (decode false "a&#x42;&lt;".toList).toOption = some "aB<" := by decide +kernel

end Trellis.Markup
