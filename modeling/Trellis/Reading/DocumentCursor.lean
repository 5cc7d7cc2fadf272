import Trellis.Markup.Stretch
import Trellis.Reading.Cursor

/-!
A cursor on a whole document.

A cursor goes as far as the first mistake.  Who asks on behind it is given the tokens that come there,
up to the next mistake, or the end of the document.
-/

namespace Trellis.Reading

open Markup (Glimpse Stretch stretches)

/-- A mistake shows where it is and, in a start tag, the name.  Attributes and text stay what they
were. -/
def Current.glimpsed (current : Current) (glimpse : Glimpse) : Current :=
  { current with
    name := glimpse.name?.getD current.name
    position := glimpse.position
    encoding := glimpse.encoding }

structure DocumentCursor where
  /-- On the tokens up to the next mistake. -/
  cursor : Cursor
  /-- What comes behind that mistake and those after it. -/
  beyond : List Stretch
  deriving Repr

namespace DocumentCursor

abbrev Outcome (α : Type) := Except ReadError α × DocumentCursor

def ofDocument (extended : Bool) (document : String) (source : Option Source) : DocumentCursor :=
  ⟨.ofDocument extended document source, stretches extended document⟩

def goOn (here : DocumentCursor) : DocumentCursor :=
  match here.beyond with
  | [] => here
  | stretch :: beyond =>
      { cursor := { here.cursor with
          rest := stretch.stream.tokens, ending := stretch.stream.ending
          current := here.cursor.current.glimpsed stretch.glimpse }
        beyond }

/-- Moves the cursor.  A mistake is told when it is come to, and never again. -/
def move {α : Type} (go : Cursor → Cursor.Outcome α) (here : DocumentCursor) : Outcome α :=
  match go here.cursor with
  | (.error (.markup error), cursor) => (.error (.markup error), goOn { here with cursor })
  | (outcome, cursor) => (outcome, { here with cursor })

def next (here : DocumentCursor) : Outcome Mark :=
  here.move Cursor.next

def nextTag (strict : Bool) (here : DocumentCursor) : Outcome Mark :=
  here.move (Cursor.nextTag strict)

def nextText (here : DocumentCursor) : Outcome String :=
  here.move Cursor.nextText

def skipElement (here : DocumentCursor) : Outcome Unit :=
  here.move Cursor.skipElement

end DocumentCursor

end Trellis.Reading
