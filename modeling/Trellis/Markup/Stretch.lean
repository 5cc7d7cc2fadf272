import Trellis.Markup.Scanner

/-!
The tokens behind a mistake.

A run of text with a wrong reference and a start tag with wrong attributes have been taken to their end
when the mistake is noticed.  They give no token, but those behind them are found all the same, up to
the next mistake.  Behind any other mistake there is nothing but the end of the document.
-/

namespace Trellis.Markup

/-- Whether the text or tag with the mistake has been taken to its end. -/
def MarkupError.canBePassed : MarkupError → Bool
  | .reference _ | .attributes _ => true
  | .unfinished _ | .unknownBang _ | .emptyDoctype | .mismatchedEnd _ _ => false

structure Glimpse where
  /-- The name in a start tag with wrong attributes. -/
  name? : Option String
  position : Position
  encoding : String
  deriving DecidableEq, Repr

structure Stretch where
  glimpse : Glimpse
  stream : TokenStream
  deriving DecidableEq, Repr

/-- The places that are reported for the end of a document, as its ending has them. -/
structure Finish where
  first : Position
  again : Position
  encoding : String
  deriving DecidableEq, Repr

def Finish.ending (finish : Finish) : Ending :=
  .finished finish.first finish.again finish.encoding

def Finish.onceMore (finish : Finish) : Finish :=
  { finish with first := finish.again }

def tagName (text : List Char) : String :=
  String.ofList (text.takeWhile fun c => !isTagBlank c)

def tagBody (text : List Char) : List Char :=
  if text.getLast? = some '/' then text.dropLast else text

@[simp]
theorem tagBody_concat (text : List Char) : tagBody (text ++ ['/']) = text := by
  rw [tagBody, if_pos List.getLast?_concat, List.dropLast_concat]

theorem tagBody_of_open {text : List Char} (isOpen : text.getLast? ≠ some '/') : tagBody text = text :=
  if_neg isOpen

namespace Scanner

def glimpse (scanner : Scanner) (error : MarkupError) : Glimpse :=
  let name? :=
    match scanner.mode with
    | .inside (.element _) taken =>
        if error.canBePassed then some (tagName (tagBody taken.reverse)) else none
    | _ => none
  ⟨name?, (scanner.tracker.advance scanner.start).position, scanner.encoding⟩

/-- Passes over a tag with wrong attributes: its element is open or, if the tag is empty, at its end. -/
def passTag (scanner : Scanner) (text : List Char) : Scanner :=
  if text.getLast? = some '/' then
    (scanner.emit (.closing (tagName (tagBody text))) scanner.offset).beginText
  else ({ scanner with opened := tagName (tagBody text) :: scanner.opened }).beginText

/-- The scanner, with no tokens yet, behind the character at which it notices a mistake that can be
passed. -/
def passMistake (scanner : Scanner) (c : Char) : Scanner :=
  let next := { scanner with offset := scanner.offset + c.utf8Size, emitted := [] }
  match scanner.mode with
  | .inside (.element _) taken => next.passTag taken.reverse
  | _ => { next with mode := .tag, start := scanner.offset }

def finishAt (scanner : Scanner) (byte : Nat) : Finish :=
  let position := (scanner.tracker.advance byte).position
  ⟨position, position, scanner.encoding⟩

/-- The byte that counts as the end of the document behind a mistake that cannot be passed: that behind
the `<`, or behind the piece, or, where the text of the piece does not count, the one between. -/
def reached (scanner : Scanner) : MarkupError → Nat
  | .unknownBang _ => scanner.start + 1
  | .mismatchedEnd _ _ | .unfinished .declaration => scanner.start + 2
  | _ => scanner.offset

def finishBehind (scanner : Scanner) (error : MarkupError) : Finish :=
  if error.canBePassed then
    let first := scanner.tracker.advance (scanner.offset - 1)
    ⟨first.position, (first.advance scanner.offset).position, scanner.encoding⟩
  else scanner.finishAt (scanner.start + 1)

/-- What comes behind the mistakes from here on, one after the other. -/
def beyond (scanner : Scanner) : List Char → List Stretch
  | [] =>
      match scanner.finish.ending with
      | .finished _ _ _ => []
      | .failed error => [⟨scanner.glimpse error, [], (scanner.finishBehind error).ending⟩]
  | c :: rest =>
      let after := scanner.step c
      match after.mode with
      | .failed error =>
          if error.canBePassed then
            let onward := scanner.passMistake c
            ⟨scanner.glimpse error, (rest.foldl step onward).finish⟩ :: onward.beyond rest
          else [⟨scanner.glimpse error, [], (after.finishAt (after.reached error)).ending⟩]
      | _ => after.beyond rest

end Scanner

def stretches (extended : Bool) (document : String) : List Stretch :=
  let source := document.toList
  (Scanner.ofSource extended source).beyond (withoutMark source)

end Trellis.Markup
