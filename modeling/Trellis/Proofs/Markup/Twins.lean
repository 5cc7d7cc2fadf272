import Mathlib.Data.List.Forall2
import Trellis.Proofs.Markup.Positions

/-!
The same characters in two documents.

A scanner takes the positions of tokens from the document and everything else from the characters
that it is given.  Two scanners that are given the same characters, each with a document of its own,
find the same tokens, and the positions of a token are those of one byte in both documents.
-/

namespace Trellis.Markup

/-! ### Tokens and contents alike up to positions -/

section Alike

variable (place : Position → Position → Prop)

structure Token.Alike (token token' : Token) : Prop where
  kind_eq : token'.kind = token.kind
  encoding_eq : token'.encoding = token.encoding
  position : place token.position token'.position

inductive Ending.Alike : Ending → Ending → Prop
  | finished {first first' again again' : Position} (firstPlace : place first first')
      (againPlace : place again again') (encoding : String) :
      Alike (.finished first again encoding) (.finished first' again' encoding)
  | failed (error : MarkupError) : Alike (.failed error) (.failed error)

structure TokenStream.Alike (stream stream' : TokenStream) : Prop where
  tokens : List.Forall₂ (Token.Alike place) stream.tokens stream'.tokens
  ending : Ending.Alike place stream.ending stream'.ending

structure Tag.Alike (tag tag' : Tag) : Prop where
  name_eq : tag'.name = tag.name
  attributes_eq : tag'.attributes = tag.attributes
  position : place tag.position tag'.position

inductive Content.Alike : Content → Content → Prop
  | closed (encoding : String) : Alike (.closed encoding) (.closed encoding)
  | broken {ending ending' : Ending} (alike : ending.Alike place ending') :
      Alike (.broken ending) (.broken ending')
  | text {position position' : Position} {rest rest' : Content} (here : place position position')
      (text : String) (after : Alike rest rest') :
      Alike (.text position text rest) (.text position' text rest')
  | element {tag tag' : Tag} {inside inside' rest rest' : Content} (tags : tag.Alike place tag')
      (within : Alike inside inside') (after : Alike rest rest') :
      Alike (.element tag inside rest) (.element tag' inside' rest')

inductive Document.Alike : Document → Document → Prop
  | rooted {tag tag' : Tag} {inside inside' : Content} (tags : tag.Alike place tag')
      (within : inside.Alike place inside') : Alike (.rooted tag inside) (.rooted tag' inside')
  | empty {ending ending' : Ending} (alike : ending.Alike place ending') :
      Alike (.empty ending) (.empty ending')

end Alike

section Reflexivity

variable {place : Position → Position → Prop}

theorem Ending.Alike.refl (same : ∀ position, place position position) (ending : Ending) :
    ending.Alike place ending := by
  cases ending with
  | finished first again encoding => exact .finished (same first) (same again) encoding
  | failed error => exact .failed error

theorem Tag.Alike.refl (same : ∀ position, place position position) (tag : Tag) :
    tag.Alike place tag :=
  ⟨rfl, rfl, same tag.position⟩

theorem Content.Alike.refl (same : ∀ position, place position position) (content : Content) :
    content.Alike place content := by
  induction content with
  | closed encoding => exact .closed encoding
  | broken ending => exact .broken (.refl same ending)
  | text position text rest ih => exact .text (same position) text ih
  | element tag inside rest ihInside ihRest => exact .element (.refl same tag) ihInside ihRest

theorem Document.Alike.refl (same : ∀ position, place position position) (document : Document) :
    document.Alike place document := by
  cases document with
  | rooted tag inside => exact .rooted (.refl same tag) (.refl same inside)
  | empty ending => exact .empty (.refl same ending)

end Reflexivity

section Folding

variable {place : Position → Position → Prop} {ending ending' : Ending} {tokens tokens' : List Token}

theorem Content.Alike.encoding_eq {content content' : Content}
    (alike : content.Alike place content') : content'.encoding? = content.encoding? := by
  induction alike with
  | closed encoding => rfl
  | broken => rfl
  | text _ _ _ ih => exact ih
  | element _ _ _ _ ih => exact ih

theorem Content.ofTokens_alike (endings : ending.Alike place ending')
    (alike : List.Forall₂ (Token.Alike place) tokens tokens') :
    (Content.ofTokens ending tokens).1.Alike place (Content.ofTokens ending' tokens').1 ∧
      List.Forall₂ (Content.Alike place) (Content.ofTokens ending tokens).2
        (Content.ofTokens ending' tokens').2 := by
  induction alike with
  | nil => exact ⟨.broken endings, .nil⟩
  | @cons token token' rest rest' here _ ih =>
      obtain ⟨inner, outer⟩ := ih
      obtain ⟨kind, position, encoding⟩ := token
      obtain ⟨kind', position', encoding'⟩ := token'
      obtain ⟨rfl, rfl, places⟩ := here
      simp only [Content.ofTokens]
      cases kind' with
      | text content => exact ⟨.text places content inner, outer⟩
      | closing name => exact ⟨.closed encoding', .cons inner outer⟩
      | opening name attributes =>
          generalize (Content.ofTokens ending rest).2 = after at outer
          generalize (Content.ofTokens ending' rest').2 = after' at outer
          cases outer with
          | nil => exact ⟨.element ⟨rfl, rfl, places⟩ inner (.broken endings), .nil⟩
          | cons next others => exact ⟨.element ⟨rfl, rfl, places⟩ inner next, others⟩

theorem Document.ofTokens_alike (endings : ending.Alike place ending')
    (alike : List.Forall₂ (Token.Alike place) tokens tokens') :
    (Document.ofTokens ending tokens).Alike place (Document.ofTokens ending' tokens') := by
  induction alike with
  | nil => exact .empty endings
  | @cons token token' rest rest' here others ih =>
      obtain ⟨kind, position, encoding⟩ := token
      obtain ⟨kind', position', encoding'⟩ := token'
      obtain ⟨rfl, rfl, places⟩ := here
      cases kind' with
      | opening name attributes =>
          exact .rooted ⟨rfl, rfl, places⟩ (Content.ofTokens_alike endings others).1
      | closing name => exact ih
      | text content => exact ih

end Folding

/-! ### Scanners -/

namespace Scanner

def SameByte (source source' : List Char) (position position' : Position) : Prop :=
  ∃ byte, position = positionAt source byte ∧ position' = positionAt source' byte

/-- The scanners differ in the document that they take positions from, and in nothing else. -/
def Twin (source source' : List Char) (scanner scanner' : Scanner) : Prop :=
  ∃ passed emitted, scanner.tracker = (Tracker.ofSource source).advance passed ∧
    scanner' = { scanner with tracker := (Tracker.ofSource source').advance passed, emitted } ∧
    List.Forall₂ (Token.Alike (SameByte source source')) scanner.emitted emitted

namespace Twin

variable {source source' : List Char} {scanner scanner' : Scanner}

theorem ofSource (extended : Bool) (source source' : List Char) :
    Twin source source' (ofSource extended source) (ofSource extended source') := by
  refine ⟨0, [], ?_, ?_, .nil⟩
  · cases source <;> rfl
  · cases source' <;> rfl

theorem turn (twin : Twin source source' scanner scanner') (mode : Mode) (offset start : Nat)
    (opened : List String) (encoding : String) :
    Twin source source' { scanner with mode, offset, start, opened, encoding }
      { scanner' with mode, offset, start, opened, encoding } := by
  obtain ⟨passed, emitted, trackerEq, rfl, alike⟩ := twin
  exact ⟨passed, emitted, trackerEq, rfl, alike⟩

theorem emit (twin : Twin source source' scanner scanner') (kind : TokenKind) (mark : Nat) :
    Twin source source' (scanner.emit kind mark) (scanner'.emit kind mark) := by
  obtain ⟨passed, emitted, trackerEq, rfl, alike⟩ := twin
  simp only [Scanner.emit, trackerEq, Tracker.advance_advance]
  exact ⟨max passed mark, _, rfl, rfl, .cons ⟨rfl, rfl, max passed mark, rfl, rfl⟩ alike⟩

theorem beginText (twin : Twin source source' scanner scanner') :
    Twin source source' scanner.beginText scanner'.beginText := by
  obtain ⟨passed, emitted, trackerEq, rfl, alike⟩ := twin
  exact ⟨passed, emitted, trackerEq, rfl, alike⟩

theorem fail (twin : Twin source source' scanner scanner') (error : MarkupError) :
    Twin source source' (scanner.fail error) (scanner'.fail error) := by
  obtain ⟨passed, emitted, trackerEq, rfl, alike⟩ := twin
  exact ⟨passed, emitted, trackerEq, rfl, alike⟩

theorem endText (twin : Twin source source' scanner scanner') (taken : List Char) :
    Twin source source' (scanner.endText taken) (scanner'.endText taken) := by
  have twin' := twin
  obtain ⟨passed, emitted, trackerEq, rfl, alike⟩ := twin'
  simp only [Scanner.endText]
  split
  · exact twin
  · split
    · exact twin.emit _ _
    · exact twin.fail _

theorem endPiece (twin : Twin source source' scanner scanner') (piece : Piece) (text : List Char) :
    Twin source source' (scanner.endPiece piece text) (scanner'.endPiece piece text) := by
  have twin' := twin
  obtain ⟨passed, emitted, trackerEq, rfl, alike⟩ := twin'
  cases piece with
  | element quote =>
      simp only [Scanner.endPiece, endElement]
      split
      · exact twin.fail _
      · split
        · exact ((twin.emit _ _).emit _ _).beginText
        · exact ((twin.emit _ _).turn _ _ _ _ _).beginText
  | closing =>
      simp only [Scanner.endPiece, endClosing]
      split
      · exact twin.fail _
      · rename_i opened _
        split
        · have popped := twin.turn scanner.mode scanner.offset scanner.start opened scanner.encoding
          exact (popped.emit _ _).beginText
        · exact twin.fail _
  | instruction =>
      simp only [Scanner.endPiece, endInstruction]
      split
      · split
        · rename_i encoding _
          exact (twin.turn scanner.mode scanner.offset scanner.start scanner.opened encoding).beginText
        · exact twin.beginText
      · exact twin.fail _
  | comment =>
      simp only [Scanner.endPiece, endComment]
      split
      · exact twin.beginText
      · exact twin.fail _
  | cdata =>
      simp only [Scanner.endPiece, endCdata]
      split
      · exact (twin.emit _ _).beginText
      · exact twin.fail _
  | doctype =>
      simp only [Scanner.endPiece, endDoctype]
      split
      · split
        · exact twin.fail _
        · exact twin.beginText
      · exact twin.fail _

theorem stepInside (twin : Twin source source' scanner scanner') (piece : Piece)
    (taken : List Char) (c : Char) :
    Twin source source' (scanner.stepInside piece taken c) (scanner'.stepInside piece taken c) := by
  unfold Scanner.stepInside
  split
  · exact twin.endPiece _ _
  · obtain ⟨passed, emitted, trackerEq, rfl, alike⟩ := twin
    exact ⟨passed, emitted, trackerEq, rfl, alike⟩

theorem step (twin : Twin source source' scanner scanner') (c : Char) :
    Twin source source' (scanner.step c) (scanner'.step c) := by
  have twin' := twin
  obtain ⟨passed, emitted, trackerEq, rfl, alike⟩ := twin'
  have next := twin.turn scanner.mode (scanner.offset + c.utf8Size) scanner.start scanner.opened
    scanner.encoding
  simp only [Scanner.step]
  split
  · exact twin
  · rename_i taken _
    split
    · have ended := next.endText taken
      have ended' := ended
      obtain ⟨passed', emitted', trackerEq', endedEq, alike'⟩ := ended'
      rw [endedEq]
      simp only
      split
      · rw [← endedEq]
        exact ended
      · exact ⟨passed', emitted', trackerEq', rfl, alike'⟩
    · exact ⟨passed, emitted, trackerEq, rfl, alike⟩
  · split
    · exact ⟨passed, emitted, trackerEq, rfl, alike⟩
    · split
      · exact ⟨passed, emitted, trackerEq, rfl, alike⟩
      · split
        · exact ⟨passed, emitted, trackerEq, rfl, alike⟩
        · exact next.stepInside _ _ _
  · exact ⟨passed, emitted, trackerEq, rfl, alike⟩
  · exact next.stepInside _ _ _

theorem foldl_step (twin : Twin source source' scanner scanner') (chars : List Char) :
    Twin source source' (chars.foldl Scanner.step scanner) (chars.foldl Scanner.step scanner') := by
  induction chars generalizing scanner scanner' with
  | nil => exact twin
  | cons c rest ih => exact ih (twin.step c)

/-! ### The end of a document -/

theorem ended {ending ending' : Ending} (twin : Twin source source' scanner scanner')
    (endings : ending.Alike (SameByte source source') ending') :
    (scanner.ended ending).Alike (SameByte source source') (scanner'.ended ending') := by
  obtain ⟨passed, emitted, _, rfl, alike⟩ := twin
  exact ⟨List.rel_reverse alike, endings⟩

theorem finishedAt (twin : Twin source source' scanner scanner') (early : Nat) :
    (scanner.finishedAt early).Alike (SameByte source source') (scanner'.finishedAt early) := by
  have twin' := twin
  obtain ⟨passed, emitted, trackerEq, rfl, alike⟩ := twin'
  simp only [Scanner.finishedAt]
  split
  · exact twin.ended (.failed _)
  · rw [trackerEq]
    simp only [Tracker.advance_advance]
    exact twin.ended (.finished ⟨_, rfl, rfl⟩ ⟨_, rfl, rfl⟩ _)

theorem finish (twin : Twin source source' scanner scanner') :
    scanner.finish.Alike (SameByte source source') scanner'.finish := by
  have twin' := twin
  obtain ⟨passed, emitted, trackerEq, rfl, alike⟩ := twin'
  simp only [Scanner.finish]
  split
  · exact twin.ended (.failed _)
  · exact (twin.endText _).finishedAt _
  · exact twin.finishedAt 1
  · exact twin.ended (.failed _)
  · split
    · exact twin.ended (.failed _)
    · exact (twin.endPiece _ _).finishedAt 0

end Twin

end Scanner

/-- A byte order mark in front of a document is not scanned.  It only shifts the places. -/
theorem parse_mark_alike (extended : Bool) {document : String}
    (noMark : withoutMark document.toList = document.toList) :
    (Document.parse extended document).Alike
      (Scanner.SameByte document.toList ('\uFEFF' :: document.toList))
      (Document.parse extended ("\uFEFF" ++ document)) := by
  have charsEq : ("\uFEFF" ++ document).toList = '\uFEFF' :: document.toList := by
    rw [String.toList_append]
    rfl
  have begun := Scanner.Twin.ofSource extended document.toList ('\uFEFF' :: document.toList)
  have streams := (begun.foldl_step document.toList).finish
  have passedOver : withoutMark ('\uFEFF' :: document.toList) = document.toList := rfl
  simp only [Document.parse, tokenize, noMark, charsEq, passedOver]
  exact Document.ofTokens_alike streams.ending streams.tokens

end Trellis.Markup
