import Trellis.Location.Tracker
import Trellis.Markup.Attribute
import Trellis.Markup.Reference
import Trellis.Markup.Token

/-!
The scanner: from the characters of a document to its tokens.

It takes the characters one after the other and never looks ahead, so what it has emitted depends on
the characters passed alone.  A piece of markup ends at the first `>` that its kind accepts, and
what the piece means is settled there.  With the first mistake the scanner has come to its end; the
tokens behind mistakes are those of `Scanner.beyond`.
-/

namespace Trellis.Markup

open Text (leadByteChar utf8Length)

inductive Piece where
  /-- A start tag or an empty tag; inside a quoted value a `>` is a character like others. -/
  | element (quote : Option Char)
  | closing
  | instruction
  | comment
  | cdata
  | doctype
  deriving DecidableEq, Repr

/-- What the scanner is in the middle of.  Characters taken are last first.  Those of a piece begin
after the `<` and after the sign that tells its kind, which is `/`, `?` or `!`. -/
inductive Mode where
  | text (taken : List Char)
  | tag
  | bang
  | inside (piece : Piece) (taken : List Char)
  /-- At its end.  What comes behind the mistake is scanned by another scanner, put there by
  `Scanner.passMistake`. -/
  | failed (error : MarkupError)
  deriving DecidableEq, Repr

structure Scanner where
  extended : Bool
  mode : Mode
  offset : Nat
  /-- The byte at which the text or piece in the making begins. -/
  start : Nat
  /-- The names of the elements that are open, innermost first. -/
  opened : List String
  encoding : String
  tracker : Tracker
  /-- The tokens so far, last first. -/
  emitted : List Token
  deriving Repr

/-! ### The meaning of complete pieces -/

/-- The name in an end tag; blanks after it do not belong to it, unless there is nothing else. -/
def closingName (text : List Char) : List Char :=
  let name := (text.reverse.dropWhile isTagBlank).reverse
  if name.isEmpty then text else name

def beginsWith (word text : List Char) : Bool :=
  word.isPrefixOf (text.map Char.toUpper)

/-- Whether a `>` ends the piece whose characters so far, last first, are given. -/
def Piece.endsAfter (piece : Piece) (taken : List Char) : Bool :=
  match piece with
  | .element quote => quote.isNone
  | .closing | .instruction => true
  | .comment => 3 < taken.length && "--".toList.isPrefixOf taken
  | .cdata => "]]".toList.isPrefixOf taken
  | .doctype => taken.count '<' == taken.count '>'

def Piece.after (piece : Piece) (c : Char) : Piece :=
  match piece with
  | .element none => .element (if c = '"' || c = '\'' then some c else none)
  | .element (some quote) => .element (if c = quote then none else some quote)
  | _ => piece

/-- The encoding that an instruction declares: it must be the declaration of the document and name
an encoding before its first mistake. -/
def declaredEncoding? (text : List Char) : Option String :=
  match text with
  | 'x' :: 'm' :: 'l' :: rest =>
      match rest with
      | c :: _ =>
          if isTagBlank c then
            ((readAttributes false 3 rest).1.find? (·.name == "encoding")).map fun found =>
              String.ofList found.value
          else none
      | [] => none
  | _ => none

/-- The attributes of a tag with their values decoded, or the first mistake among them. -/
def decodeAttributes (extended : Bool) (offset : Nat) (text : List Char) :
    Except MarkupError (List (String × String)) := do
  let (raw, mistake) := readAttributes true offset text
  let decoded ← raw.mapM fun written => do
    let value ← (decode extended written.value).mapError .reference
    return (written.name, value)
  match mistake with
  | some error => throw (.attributes error)
  | none => return decoded

/-! ### Steps -/

namespace Scanner

def ofSource (extended : Bool) (source : List Char) : Scanner :=
  { extended, mode := .text [], offset := 0, start := 0, opened := [], encoding := defaultEncoding
    tracker := .ofSource source, emitted := [] }

def fail (scanner : Scanner) (error : MarkupError) : Scanner :=
  { scanner with mode := .failed error }

def emit (scanner : Scanner) (kind : TokenKind) (mark : Nat) : Scanner :=
  let tracker := scanner.tracker.advance mark
  { scanner with
    tracker := tracker
    emitted := ⟨kind, tracker.position, scanner.encoding⟩ :: scanner.emitted }

def beginText (scanner : Scanner) : Scanner :=
  { scanner with mode := .text [], start := scanner.offset }

def endText (scanner : Scanner) (taken : List Char) : Scanner :=
  if taken.isEmpty then scanner
  else
    match decode scanner.extended taken.reverse with
    | .ok content => scanner.emit (.text content) scanner.start
    | .error error => scanner.fail (.reference error)

def endClosing (scanner : Scanner) (text : List Char) : Scanner :=
  match scanner.opened with
  | [] => scanner.fail (.mismatchedEnd "" (String.ofList text))
  | expected :: opened =>
      let name := String.ofList (closingName text)
      if name = expected then
        (({ scanner with opened }).emit (.closing name) scanner.start).beginText
      else scanner.fail (.mismatchedEnd expected name)

/-- Opens the element of a start tag; if the tag ends in a slash, the element is closed at once. -/
def endElement (scanner : Scanner) (text : List Char) : Scanner :=
  let isEmpty := text.getLast? = some '/'
  let text := if isEmpty then text.dropLast else text
  let chars := text.takeWhile fun c => !isTagBlank c
  let name := String.ofList chars
  match decodeAttributes scanner.extended (utf8Length chars) (text.drop chars.length) with
  | .error error => scanner.fail error
  | .ok attributes =>
      let scanner := scanner.emit (.opening name attributes) scanner.start
      if isEmpty then (scanner.emit (.closing name) scanner.offset).beginText
      else ({ scanner with opened := name :: scanner.opened }).beginText

/-- Takes the declared encoding over; any other instruction is passed over. -/
def endInstruction (scanner : Scanner) (text : List Char) : Scanner :=
  match text.reverse with
  | '?' :: _ :: _ =>
      match declaredEncoding? text.dropLast with
      | some encoding => ({ scanner with encoding }).beginText
      | none => scanner.beginText
  | _ => scanner.fail (.unfinished .declaration)

def endComment (scanner : Scanner) (text : List Char) : Scanner :=
  if "--".toList.isPrefixOf text then scanner.beginText else scanner.fail (.unfinished .comment)

def endCdata (scanner : Scanner) (text : List Char) : Scanner :=
  if beginsWith "[CDATA[".toList text then
    let content := (text.drop 7).take (text.length - 9)
    (scanner.emit (.text (String.ofList content)) scanner.start).beginText
  else scanner.fail (.unfinished .cdata)

def endDoctype (scanner : Scanner) (text : List Char) : Scanner :=
  if beginsWith "DOCTYPE".toList text then
    if (text.drop 7).all isTagBlank then scanner.fail .emptyDoctype else scanner.beginText
  else scanner.fail (.unfinished .doctype)

def endPiece (scanner : Scanner) (piece : Piece) (text : List Char) : Scanner :=
  match piece with
  | .element _ => scanner.endElement text
  | .closing => scanner.endClosing text
  | .instruction => scanner.endInstruction text
  | .comment => scanner.endComment text
  | .cdata => scanner.endCdata text
  | .doctype => scanner.endDoctype text

def stepInside (scanner : Scanner) (piece : Piece) (taken : List Char) (c : Char) : Scanner :=
  if c = '>' && piece.endsAfter taken then scanner.endPiece piece taken.reverse
  else { scanner with mode := .inside (piece.after c) (c :: taken) }

def bangMode (c : Char) : Mode :=
  if c = '[' then .inside .cdata [c]
  else if c = '-' then .inside .comment [c]
  else if c = 'D' || c = 'd' then .inside .doctype [c]
  else .failed (.unknownBang (leadByteChar c))

def step (scanner : Scanner) (c : Char) : Scanner :=
  let next := { scanner with offset := scanner.offset + c.utf8Size }
  match scanner.mode with
  | .failed _ => scanner
  | .text taken =>
      if c = '<' then
        let ended := next.endText taken
        match ended.mode with
        | .failed _ => ended
        | _ => { ended with mode := .tag, start := scanner.offset }
      else { next with mode := .text (c :: taken) }
  | .tag =>
      if c = '/' then { next with mode := .inside .closing [] }
      else if c = '?' then { next with mode := .inside .instruction [] }
      else if c = '!' then { next with mode := .bang }
      else next.stepInside (.element none) [] c
  | .bang => { next with mode := bangMode c }
  | .inside piece taken => next.stepInside piece taken c

/-! ### The end of a document -/

/-- The construct that breaks off if the document ends inside the piece.  End tags and instructions
may end with the document. -/
def unfinished? : Piece → Option Construct
  | .element _ => some .element
  | .comment => some .comment
  | .cdata => some .cdata
  | .doctype => some .doctype
  | .closing | .instruction => none

def ended (scanner : Scanner) (ending : Ending) : TokenStream :=
  ⟨scanner.emitted.reverse, ending⟩

/-- The tokens of a document that ends here and is noticed to end `early` bytes before. -/
def finishedAt (scanner : Scanner) (early : Nat) : TokenStream :=
  match scanner.mode with
  | .failed error => scanner.ended (.failed error)
  | _ =>
      let first := scanner.tracker.advance (scanner.offset - early)
      let again := first.advance scanner.offset
      scanner.ended (.finished first.position again.position scanner.encoding)

def finish (scanner : Scanner) : TokenStream :=
  match scanner.mode with
  | .failed error => scanner.ended (.failed error)
  | .text taken => (scanner.endText taken).finishedAt (if taken.isEmpty then 0 else 1)
  | .tag => scanner.finishedAt 1
  | .bang => scanner.ended (.failed (.unfinished .bang))
  | .inside piece taken =>
      match unfinished? piece with
      | some construct => scanner.ended (.failed (.unfinished construct))
      | none => (scanner.endPiece piece taken.reverse).finishedAt 0

end Scanner

/-! ### Documents -/

/-- The characters of a document without the byte order mark it may begin with. -/
def withoutMark : List Char → List Char
  | [] => []
  | c :: rest => if c = '\uFEFF' then rest else c :: rest

def tokenize (extended : Bool) (document : String) : TokenStream :=
  let source := document.toList
  ((withoutMark source).foldl Scanner.step (Scanner.ofSource extended source)).finish

end Trellis.Markup
