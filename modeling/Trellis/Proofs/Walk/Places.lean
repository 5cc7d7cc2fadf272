import Trellis.Proofs.Markup.Lapses
import Trellis.Proofs.Walk.Cursor
import Trellis.Reading.DocumentCursor

/-!
The places that a cursor reports.

However a cursor is moved, behind mistakes too, what it has left is an end of all tokens of the
document, so that the token it goes on to is one of those the passages of the document give, at the
place where it stands.
-/

namespace Trellis.Reading

open Markup (Crosses Ending StandsBehind Stretch Token lastLine stretches tokenize)
open Markup.Scanner (Chained)

inductive Call where
  | next
  | nextTag (strict : Bool)
  | nextText
  | skipElement

def Call.move (call : Call) (here : DocumentCursor) : DocumentCursor :=
  match call with
  | .next => here.next.2
  | .nextTag strict => (here.nextTag strict).2
  | .nextText => here.nextText.2
  | .skipElement => here.skipElement.2

namespace Cursor

/-- The cursor has an end of the tokens left, and the provenance; what may come behind the ending may
come behind that of the cursor. -/
structure Along (tokens : List Token) (ending : Ending) (source : Option Source) (cursor : Cursor) :
    Prop where
  rest_isSuffix : cursor.rest <:+ tokens
  source_eq : cursor.source = source
  chains : ∀ beyond, Chained ending beyond → Chained cursor.ending beyond

variable {tokens : List Token} {ending : Ending} {source : Option Source} {cursor : Cursor}

private theorem Along.onto (along : cursor.Along tokens ending source) {token : Token}
    {rest : List Token} (restEq : cursor.rest = token :: rest) :
    (cursor.onto token rest).Along tokens ending source := by
  refine ⟨?_, along.source_eq, along.chains⟩
  have isSuffix := along.rest_isSuffix
  rw [restEq] at isSuffix
  exact (List.suffix_cons token rest).trans isSuffix

private theorem Along.onEnd (along : cursor.Along tokens ending source) {first again : Position}
    {encoding : String} (endingEq : cursor.ending = .finished first again encoding) :
    (cursor.onEnd first again encoding).Along tokens ending source := by
  refine ⟨List.nil_suffix, along.source_eq, ?_⟩
  intro beyond chained
  have here := along.chains beyond chained
  rw [endingEq] at here
  cases here
  exact .finished _ _ _

private theorem Along.endError {α : Type} (along : cursor.Along tokens ending source) :
    (cursor.endError : Outcome α).2.Along tokens ending source := by
  unfold Cursor.endError
  split
  · exact along
  · rename_i endingEq
    exact along.onEnd endingEq

private theorem Along.next (along : cursor.Along tokens ending source) :
    cursor.next.2.Along tokens ending source := by
  unfold Cursor.next
  split
  · unfold Cursor.atEnd
    split
    · exact along
    · rename_i endingEq
      exact along.onEnd endingEq
  · rename_i token rest restEq
    exact along.onto restEq

private theorem Along.nextTagAmong (strict : Bool) {ahead : List Token}
    (along : cursor.Along tokens ending source) (restEq : cursor.rest = ahead) :
    (cursor.nextTagAmong strict ahead).2.Along tokens ending source := by
  induction ahead generalizing cursor with
  | nil => exact along.endError
  | cons token rest ih =>
      have here := along.onto restEq
      rw [Cursor.nextTagAmong]
      split
      · split
        · exact here
        · exact ih here rfl
      · exact here

private theorem Along.nextTextAmong (text : String) {ahead : List Token}
    (along : cursor.Along tokens ending source) (restEq : cursor.rest = ahead) :
    (cursor.nextTextAmong text ahead).2.Along tokens ending source := by
  induction ahead generalizing cursor text with
  | nil => exact along.endError
  | cons token rest ih =>
      have here := along.onto restEq
      rw [Cursor.nextTextAmong]
      split
      · exact ih _ here rfl
      · exact here
      · exact here

private theorem Along.skipAmong (depth : Nat) {ahead : List Token}
    (along : cursor.Along tokens ending source) (restEq : cursor.rest = ahead) :
    (cursor.skipAmong depth ahead).2.Along tokens ending source := by
  induction ahead generalizing cursor depth with
  | nil => exact along.endError
  | cons token rest ih =>
      have here := along.onto restEq
      rw [Cursor.skipAmong]
      split
      · exact ih _ here rfl
      · exact ih _ here rfl
      · split
        · exact here
        · exact ih _ here rfl

def Keeps {α : Type} (go : Cursor → Outcome α) : Prop :=
  ∀ cursor, (go cursor).2.Along cursor.rest cursor.ending cursor.source

private theorem along_self (cursor : Cursor) : cursor.Along cursor.rest cursor.ending cursor.source :=
  ⟨List.suffix_refl _, rfl, fun _ => id⟩

private theorem next_keeps : Keeps Cursor.next := fun cursor => cursor.along_self.next

private theorem nextTag_keeps (strict : Bool) : Keeps (Cursor.nextTag strict) :=
  fun cursor => cursor.along_self.nextTagAmong strict rfl

private theorem nextText_keeps : Keeps Cursor.nextText :=
  fun cursor => cursor.along_self.nextTextAmong "" rfl

private theorem skipElement_keeps : Keeps Cursor.skipElement :=
  fun cursor => cursor.along_self.skipAmong 1 rfl

end Cursor

namespace DocumentCursor

def remaining (here : DocumentCursor) : List Token :=
  here.cursor.rest ++ here.beyond.flatMap (·.stream.tokens)

/-- The cursor has an end of the tokens left, and every mistake ahead has something behind it. -/
structure Along (tokens : List Token) (source : Option Source) (here : DocumentCursor) : Prop where
  remaining_isSuffix : here.remaining <:+ tokens
  source_eq : here.cursor.source = source
  chained : Chained here.cursor.ending here.beyond

variable {tokens : List Token} {source : Option Source} {here : DocumentCursor}

private theorem Along.to (along : here.Along tokens source) {cursor : Cursor}
    (there : cursor.Along here.cursor.rest here.cursor.ending here.cursor.source) :
    ({ here with cursor } : DocumentCursor).Along tokens source := by
  refine ⟨?_, there.source_eq.trans along.source_eq, there.chains _ along.chained⟩
  obtain ⟨passed, restEq⟩ := there.rest_isSuffix
  refine .trans ⟨passed, ?_⟩ along.remaining_isSuffix
  rw [remaining, remaining, ← List.append_assoc, restEq]

private theorem Along.goOn (along : here.Along tokens source) : here.goOn.Along tokens source := by
  unfold DocumentCursor.goOn
  split
  · exact along
  · rename_i stretch beyond beyondEq
    obtain ⟨isSuffix, sourceEq, chained⟩ := along
    rw [beyondEq] at chained
    rw [remaining, beyondEq, List.flatMap_cons] at isSuffix
    generalize here.cursor.ending = ending at chained
    cases chained with
    | failed error chained => exact ⟨(List.suffix_append _ _).trans isSuffix, sourceEq, chained⟩

private theorem Along.move {α : Type} {go : Cursor → Cursor.Outcome α} (keeps : Cursor.Keeps go)
    (along : here.Along tokens source) : (here.move go).2.Along tokens source := by
  have there := along.to (keeps here.cursor)
  unfold DocumentCursor.move
  generalize go here.cursor = outcome at there ⊢
  split
  · exact there.goOn
  · exact there

private theorem Along.call (along : here.Along tokens source) (call : Call) :
    (call.move here).Along tokens source := by
  cases call with
  | next => exact along.move Cursor.next_keeps
  | nextTag strict => exact along.move (Cursor.nextTag_keeps strict)
  | nextText => exact along.move Cursor.nextText_keeps
  | skipElement => exact along.move Cursor.skipElement_keeps

private theorem Along.foldl_call (along : here.Along tokens source) (calls : List Call) :
    (calls.foldl (fun here call => call.move here) here).Along tokens source := by
  induction calls generalizing here with
  | nil => exact along
  | cons call rest ih => exact ih (along.call call)

def moved (extended : Bool) (document : String) (source : Option Source) (calls : List Call) :
    DocumentCursor :=
  calls.foldl (fun here call => call.move here) (ofDocument extended document source)

private theorem moved_along (extended : Bool) (document : String) (source : Option Source)
    (calls : List Call) :
    (moved extended document source calls).Along
      ((tokenize extended document).tokens ++
        (stretches extended document).flatMap (·.stream.tokens)) source := by
  have begins : (ofDocument extended document source).Along
      ((tokenize extended document).tokens ++
        (stretches extended document).flatMap (·.stream.tokens)) source :=
    ⟨List.suffix_refl _, rfl, Markup.stretches_chained extended document⟩
  exact begins.foldl_call calls

private theorem next_eq_ok {mark : Mark} {last : DocumentCursor} (nextEq : here.next = (.ok mark, last))
    (notEnd : mark ≠ .finished) :
    ∃ token, here.remaining = token :: last.remaining ∧ mark = Cursor.markOf token ∧
      last = { here with cursor := here.cursor.onto token last.cursor.rest } := by
  cases restEq : here.cursor.rest with
  | nil =>
      cases endingEq : here.cursor.ending with
      | failed error =>
          simp only [next, move, Cursor.next, Cursor.atEnd, restEq, endingEq] at nextEq
          cases nextEq
      | finished first again encoding =>
          simp only [next, move, Cursor.next, Cursor.atEnd, restEq, endingEq] at nextEq
          cases nextEq
          exact absurd rfl notEnd
  | cons token rest =>
      simp only [next, move, Cursor.next, restEq] at nextEq
      cases nextEq
      exact ⟨token, by rw [remaining, restEq]; rfl, rfl, rfl⟩

private theorem next_eq_error (chained : Chained here.cursor.ending here.beyond) {error : ReadError}
    {last : DocumentCursor} (nextEq : here.next = (.error error, last)) :
    ∃ stretch, here.beyond = stretch :: last.beyond ∧ last.cursor.rest = stretch.stream.tokens := by
  cases restEq : here.cursor.rest with
  | cons token rest =>
      simp only [next, move, Cursor.next, restEq] at nextEq
      cases nextEq
  | nil =>
      generalize endingEq : here.cursor.ending = ending at chained
      generalize beyondEq : here.beyond = beyond at chained
      cases chained with
      | finished first again encoding =>
          simp only [next, move, Cursor.next, Cursor.atEnd, restEq, endingEq] at nextEq
          cases nextEq
      | @failed stretch beyond mistake _ =>
          simp only [next, move, Cursor.next, Cursor.atEnd, restEq, endingEq, goOn, beyondEq] at nextEq
          cases nextEq
          exact ⟨stretch, rfl, rfl⟩

end DocumentCursor

/-- A document without a byte order mark is a row of passages, some of them with mistakes that can be
passed.  A cursor that goes on to a token of a passage, after whatever calls, reports the line ends and
the characters behind the last line end of all that the document has in front of the token; one that
comes to a mistake stands in front of the tokens behind it. -/
theorem next_reports_place (extended : Bool) (document : String) (source : Option Source)
    (noMark : document.toList.head? ≠ some '\uFEFF') :
    ∃ read unread shown, document.toList = read ++ unread ∧ Crosses extended read shown unread ∧
      Markup.Scanner.EndsAll (tokenize extended document) (stretches extended document) unread ∧
      ∀ calls, let here := DocumentCursor.moved extended document source calls
        (∀ error last, here.next = (.error error, last) →
          ∃ stretch, here.beyond = stretch :: last.beyond ∧
            last.cursor.rest = stretch.stream.tokens) ∧
        ∀ mark last, here.next = (.ok mark, last) → mark ≠ .finished →
          ∃ passed token front later, shown = passed ++ (token.kind, front) :: later ∧
            later.length = last.remaining.length ∧ mark = Cursor.markOf token ∧
            last = { here with cursor := here.cursor.onto token last.cursor.rest } ∧
            StandsBehind extended document.toList token.kind front ∧
            last.cursor.location = ⟨⟨1 + front.count '\n', 1 + (lastLine front).length⟩, source⟩ := by
  obtain ⟨read, unread, shown, documentEq, crosses, placedEq, ends⟩ :=
    Markup.stretches_cross extended (Markup.withoutMark_eq_self noMark)
  refine ⟨read, unread, shown, documentEq, crosses, ends, ?_⟩
  intro calls here
  have along := DocumentCursor.moved_along extended document source calls
  refine ⟨fun error last nextEq => DocumentCursor.next_eq_error along.chained nextEq, ?_⟩
  intro mark last nextEq notEnd
  obtain ⟨token, remainingEq, markEq, lastEq⟩ := DocumentCursor.next_eq_ok nextEq notEnd
  obtain ⟨before, tokensEq⟩ := along.remaining_isSuffix
  have tokensEq : before ++ token :: last.remaining = _ := remainingEq ▸ tokensEq
  rw [Markup.Scanner.allPlaced, ← tokensEq, List.map_append, List.map_cons,
    Markup.Scanner.places] at placedEq
  obtain ⟨passed, others, rfl, _, othersEq⟩ := List.map_eq_append_iff.1 placedEq.symm
  obtain ⟨⟨kind, front⟩, later, rfl, hereEq, laterEq⟩ := List.map_eq_cons_iff.1 othersEq
  obtain ⟨rfl, positionEq⟩ := Prod.mk.inj hereEq
  refine ⟨passed, token, front, later, rfl, ?_, markEq, lastEq, ?_, ?_⟩
  · rw [← List.length_map, laterEq, List.length_map]
  · rw [documentEq]
    exact crosses.stands (List.mem_append_right _ List.mem_cons_self)
  · rw [lastEq, Cursor.location_onto, along.source_eq, ← positionEq, Markup.placeBehind_eq]

/-- Behind a comment with a character of two bytes, a `>` in an attribute, a wrong reference and a section
of raw text with a line end, the end tag of an empty element with a wrong attribute is reported right
behind `/>`. -/
theorem next_reports_place_behind_mistakes :
    ∃ document last, document = "<!-- ä\n--><a b='>'>\n é&no;<![CDATA[<x>\n]]><c d/>z</a>" ∧
      document.toList.head? ≠ some '\uFEFF' ∧
      (DocumentCursor.moved true document none [.nextTag false, .nextText, .nextTag false]).next =
        (.ok .closing, last) ∧
      last.cursor.location = ⟨⟨4, 10⟩, none⟩ ∧
      ∃ front, StandsBehind true document.toList (.closing "c") front ∧
        front.count '\n' = 3 ∧ (lastLine front).length = 9 := by
  obtain ⟨document, documentEq⟩ :
      ∃ document, document = "<!-- ä\n--><a b='>'>\n é&no;<![CDATA[<x>\n]]><c d/>z</a>" := ⟨_, rfl⟩
  have streamEq : tokenize true document =
      ⟨[⟨.opening "a" [("b", ">")], ⟨2, 4⟩, "UTF-8"⟩], .failed (.reference (.unknown 5 7 "no"))⟩ := by
    rw [documentEq]
    decide +kernel
  have beyondEq : stretches true document =
      [⟨⟨none, ⟨2, 13⟩, "UTF-8"⟩, [⟨.text "<x>\n", ⟨3, 7⟩, "UTF-8"⟩],
          .failed (.attributes (.expectedEquals 3))⟩,
        ⟨⟨some "c", ⟨4, 4⟩, "UTF-8"⟩,
          [⟨.closing "c", ⟨4, 10⟩, "UTF-8"⟩, ⟨.text "z", ⟨4, 10⟩, "UTF-8"⟩,
            ⟨.closing "a", ⟨4, 11⟩, "UTF-8"⟩], .finished ⟨4, 15⟩ ⟨4, 15⟩ "UTF-8"⟩] := by
    rw [documentEq]
    decide +kernel
  have noMark : document.toList.head? ≠ some '\uFEFF' := by
    rw [documentEq]
    decide +kernel
  obtain ⟨last, nextEq, nameEq, placeEq⟩ : ∃ last,
      (DocumentCursor.moved true document none [.nextTag false, .nextText, .nextTag false]).next =
        (.ok .closing, last) ∧
        last.cursor.current.name = "c" ∧ last.cursor.location = ⟨⟨4, 10⟩, none⟩ := by
    simp only [DocumentCursor.moved, DocumentCursor.ofDocument, Cursor.ofDocument, streamEq, beyondEq]
    exact ⟨_, rfl, rfl, rfl⟩
  obtain ⟨_, _, _, _, _, _, places⟩ := next_reports_place true document none noMark
  obtain ⟨_, ⟨kind, position, encoding⟩, front, _, _, _, markEq, lastEq, stands, locationEq⟩ :=
    (places _).2 _ _ nextEq Mark.noConfusion
  cases kind with
  | closing name =>
      rw [lastEq] at nameEq
      have nameEq : name = "c" := nameEq
      rw [nameEq] at stands
      rw [placeEq] at locationEq
      injection locationEq with positionEq
      injection positionEq with lineEq columnEq
      exact ⟨document, last, documentEq, noMark, nextEq, placeEq, front, stands, by omega, by omega⟩
  | opening name attributes => cases markEq
  | text content => cases markEq

end Trellis.Reading
