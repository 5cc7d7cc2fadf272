import Trellis.Markup.Scanner
import Trellis.Reading.Error
import Trellis.Text.Blank

/-!
A cursor on the tokens of a document up to the first mistake, for reading it by hand.

The cursor remembers what the tokens so far have shown: the name and the attributes of the last tag,
the text of the last run of text.  A start or end tag clears the text, an end tag clears the
attributes, and text leaves name and attributes as they are.
-/

namespace Trellis.Reading

open Markup (Ending Token TokenKind tokenize)

inductive Mark where
  | opening
  | closing
  | text
  | finished
  deriving DecidableEq, Repr

structure Current where
  name : String
  attributes : List (String × String)
  text : String
  position : Position
  encoding : String
  deriving DecidableEq, Repr

def Current.initial : Current :=
  ⟨"", [], "", ⟨1, 1⟩, Markup.defaultEncoding⟩

def Current.after (current : Current) (token : Token) : Current :=
  let current := { current with position := token.position, encoding := token.encoding }
  match token.kind with
  | .opening name attributes => { current with name, attributes, text := "" }
  | .closing name => { current with name, attributes := [], text := "" }
  | .text content => { current with text := content }

/-- A place among the tokens up to the first mistake, or up to the end of the document if there is no
mistake.  What a document has behind its mistakes is for `DocumentCursor`, which stands on one such row
of tokens after the other. -/
structure Cursor where
  rest : List Token
  ending : Ending
  current : Current
  source : Option Source
  deriving Repr

namespace Cursor

def ofDocument (extended : Bool) (document : String) (source : Option Source) : Cursor :=
  let stream := tokenize extended document
  ⟨stream.tokens, stream.ending, .initial, source⟩

def location (cursor : Cursor) : Location :=
  ⟨cursor.current.position, cursor.source⟩

def attribute? (cursor : Cursor) (name : String) : Option String :=
  cursor.current.attributes.lookup name

abbrev Outcome (α : Type) := Except ReadError α × Cursor

def onto (cursor : Cursor) (token : Token) (rest : List Token) : Cursor :=
  { cursor with rest := rest, current := cursor.current.after token }

def onEnd (cursor : Cursor) (first again : Position) (encoding : String) : Cursor :=
  { cursor with
    rest := [], ending := .finished again again encoding, current := ⟨"", [], "", first, encoding⟩ }

/-- What comes of going on when no token is left.  At a mistake this cursor stays; a `DocumentCursor` goes
on behind it. -/
def atEnd (cursor : Cursor) : Outcome Mark :=
  match cursor.ending with
  | .failed error => (.error (.markup error), cursor)
  | .finished first again encoding => (.ok .finished, cursor.onEnd first again encoding)

def endError {α : Type} (cursor : Cursor) : Outcome α :=
  match cursor.ending with
  | .failed error => (.error (.markup error), cursor)
  | .finished first again encoding =>
      let here := cursor.onEnd first again encoding
      (.error (.unexpectedEnd here.location), here)

def markOf (token : Token) : Mark :=
  match token.kind with
  | .opening _ _ => .opening
  | .closing _ => .closing
  | .text _ => .text

def next (cursor : Cursor) : Outcome Mark :=
  match cursor.rest with
  | [] => cursor.atEnd
  | token :: rest => (.ok (markOf token), cursor.onto token rest)

/-- Goes on to the next start or end tag.  Blank text is passed over; other text is too unless
`strict` holds, and then it is an error. -/
def nextTagAmong (strict : Bool) (cursor : Cursor) : List Token → Outcome Mark
  | [] => cursor.endError
  | token :: rest =>
      let here := cursor.onto token rest
      match token.kind with
      | .text content =>
          if strict && !Text.isBlankText content then (.error (.unexpectedText here.location), here)
          else nextTagAmong strict here rest
      | _ => (.ok (markOf token), here)

def nextTag (strict : Bool) (cursor : Cursor) : Outcome Mark :=
  nextTagAmong strict cursor cursor.rest

def nextTextAmong (text : String) (cursor : Cursor) : List Token → Outcome String
  | [] => cursor.endError
  | token :: rest =>
      let here := cursor.onto token rest
      match token.kind with
      | .text content => nextTextAmong (text ++ content) here rest
      | .closing _ => (.ok text, here)
      | .opening name _ => (.error (.unexpectedElement name here.location), here)

def nextText (cursor : Cursor) : Outcome String :=
  nextTextAmong "" cursor cursor.rest

/-- Goes on until `depth` elements more have ended than begun. -/
def skipAmong (depth : Nat) (cursor : Cursor) : List Token → Outcome Unit
  | [] => cursor.endError
  | token :: rest =>
      let here := cursor.onto token rest
      match token.kind with
      | .text _ => skipAmong depth here rest
      | .opening _ _ => skipAmong (depth + 1) here rest
      | .closing _ => if depth ≤ 1 then (.ok (), here) else skipAmong (depth - 1) here rest

def skipElement (cursor : Cursor) : Outcome Unit :=
  skipAmong 1 cursor cursor.rest

end Cursor

end Trellis.Reading
