import Trellis.Proofs.Markup.Nesting
import Trellis.Proofs.Walk.Reader

/-!
Where a cursor stands.

A cursor on a start tag has the content of the element before it.  The moves of the cursor are
described by that content: how each of them goes over text, over an element, to the end tag or to
the place where the document breaks off.
-/

namespace Trellis.Reading

open Markup (Content Ending Tag Token TokenKind)

namespace Cursor

/-- What the element whose start tag is under the cursor holds. -/
def inside (cursor : Cursor) : Content :=
  (Content.ofTokens cursor.ending cursor.rest).1

/-- The second cursor stands on the end tag of the element whose start tag is under the first, and
has passed no more tokens than that. -/
def Ends (cursor last : Cursor) : Prop :=
  ∃ tokens closing, cursor.rest = tokens ++ closing :: last.rest ∧
    cursor.inside.Spans tokens closing ∧ last = cursor.onto closing last.rest

@[simp] theorem onto_rest (cursor : Cursor) (token : Token) (rest : List Token) :
    (cursor.onto token rest).rest = rest := rfl

@[simp] theorem onto_ending (cursor : Cursor) (token : Token) (rest : List Token) :
    (cursor.onto token rest).ending = cursor.ending := rfl

@[simp] theorem onto_source (cursor : Cursor) (token : Token) (rest : List Token) :
    (cursor.onto token rest).source = cursor.source := rfl

theorem onto_eq_of_closing {cursor other : Cursor} {token : Token} {name : String}
    (kind : token.kind = .closing name) (endingEq : cursor.ending = other.ending)
    (sourceEq : cursor.source = other.source) (rest : List Token) :
    cursor.onto token rest = other.onto token rest := by
  simp only [onto, Current.after, kind, endingEq, sourceEq]

theorem tag_onto_of_opening {token : Token} {name : String} {attributes : List (String × String)}
    (kind : token.kind = .opening name attributes) (cursor : Cursor) (rest : List Token) :
    (cursor.onto token rest).tag = ⟨name, attributes, token.position⟩ := by
  obtain ⟨tokenKind, position, encoding⟩ := token
  cases kind
  rfl

theorem location_onto (cursor : Cursor) (token : Token) (rest : List Token) :
    (cursor.onto token rest).location = ⟨token.position, cursor.source⟩ := by
  obtain ⟨kind, position, encoding⟩ := token
  cases kind <;> rfl

private theorem encoding_onto (cursor : Cursor) (token : Token) (rest : List Token) :
    (cursor.onto token rest).current.encoding = token.encoding := by
  obtain ⟨kind, position, encoding⟩ := token
  cases kind <;> rfl

theorem Ends.source_eq {cursor last : Cursor} (ends : cursor.Ends last) :
    last.source = cursor.source := by
  obtain ⟨_, _, _, _, lastEq⟩ := ends
  rw [lastEq, onto_source]

theorem Ends.ending_eq {cursor last : Cursor} (ends : cursor.Ends last) :
    last.ending = cursor.ending := by
  obtain ⟨_, _, _, _, lastEq⟩ := ends
  rw [lastEq, onto_ending]

theorem Ends.rest_length_lt {cursor last : Cursor} (ends : cursor.Ends last) :
    last.rest.length < cursor.rest.length := by
  obtain ⟨tokens, closing, restEq, _, _⟩ := ends
  rw [restEq, List.length_append, List.length_cons]
  omega

theorem Ends.encoding_eq {cursor last : Cursor} (ends : cursor.Ends last) :
    cursor.inside.encoding? = some last.current.encoding := by
  obtain ⟨_, _, _, spans, lastEq⟩ := ends
  rw [spans.encoding_eq, lastEq, encoding_onto]

/-! ### The first token of a content -/

inductive BeginsWith (cursor : Cursor) : List Token → Content → Prop where
  | broken : BeginsWith cursor [] (.broken cursor.ending)
  | closed {token : Token} {rest : List Token} {name : String} (kind : token.kind = .closing name) :
      BeginsWith cursor (token :: rest) (.closed token.encoding)
  | text {token : Token} {rest : List Token} {text : String} (kind : token.kind = .text text) :
      BeginsWith cursor (token :: rest)
        (.text token.position text (cursor.onto token rest).inside)
  | element {token : Token} {rest : List Token} {name : String} {attributes : List (String × String)}
      (kind : token.kind = .opening name attributes) :
      BeginsWith cursor (token :: rest)
        (.element ⟨name, attributes, token.position⟩ (cursor.onto token rest).inside
          ((Content.ofTokens cursor.ending rest).2.headD (.broken cursor.ending)))

private theorem inside_beginsWith (cursor : Cursor) : cursor.BeginsWith cursor.rest cursor.inside := by
  unfold inside
  cases cursor.rest with
  | nil => exact .broken
  | cons token rest =>
      rw [Content.ofTokens]
      cases kind : token.kind with
      | closing name => exact .closed kind
      | text text => exact .text kind
      | opening name attributes =>
          have begins : cursor.BeginsWith (token :: rest) _ := .element kind
          unfold inside at begins
          rw [onto_ending, onto_rest] at begins
          generalize Content.ofTokens cursor.ending rest = folded at begins
          obtain ⟨inner, outer⟩ := folded
          cases outer <;> exact begins

theorem inside_closed {cursor : Cursor} {encoding : String}
    (content : cursor.inside = .closed encoding) :
    ∃ token rest name, cursor.rest = token :: rest ∧ token.kind = .closing name ∧
      cursor.Ends (cursor.onto token rest) := by
  have begins := cursor.inside_beginsWith
  rw [content] at begins
  generalize restEq : cursor.rest = tokens at begins
  cases begins with
  | @closed token rest name kind =>
      refine ⟨token, rest, name, rfl, kind, [], token, restEq, ?_, rfl⟩
      rw [content]
      exact .closed kind

theorem inside_broken {cursor : Cursor} {ending : Ending}
    (content : cursor.inside = .broken ending) : cursor.rest = [] ∧ cursor.ending = ending := by
  have begins := cursor.inside_beginsWith
  rw [content] at begins
  generalize cursor.rest = tokens at begins
  cases begins with
  | broken => exact ⟨rfl, rfl⟩

theorem inside_text {cursor : Cursor} {position : Position} {text : String} {after : Content}
    (content : cursor.inside = .text position text after) :
    ∃ token rest, cursor.rest = token :: rest ∧ token.kind = .text text ∧
      token.position = position ∧ (cursor.onto token rest).inside = after ∧
      ∀ last, (cursor.onto token rest).Ends last → cursor.Ends last := by
  have begins := cursor.inside_beginsWith
  rw [content] at begins
  generalize restEq : cursor.rest = tokens at begins
  cases begins with
  | @text token rest _ kind =>
      refine ⟨token, rest, rfl, kind, rfl, rfl, ?_⟩
      intro last ends
      obtain ⟨tokens, closing, split, spans, lastEq⟩ := ends
      obtain ⟨_, closingKind⟩ := spans.closing_kind
      refine ⟨token :: tokens, closing, ?_, ?_, ?_⟩
      · rw [restEq, List.cons_append, ← split, onto_rest]
      · rw [content]
        exact .text kind spans
      · exact lastEq.trans (onto_eq_of_closing closingKind (onto_ending _ _ _) (onto_source _ _ _) _)

theorem inside_element {cursor : Cursor} {tag : Tag} {within after : Content}
    (content : cursor.inside = .element tag within after) :
    ∃ token rest, cursor.rest = token :: rest ∧ token.kind = .opening tag.name tag.attributes ∧
      (cursor.onto token rest).tag = tag ∧ (cursor.onto token rest).inside = within ∧
      (within.break? ≠ none → after.break? = within.break?) ∧
      ∀ last, (cursor.onto token rest).Ends last →
        last.inside = after ∧ ∀ final, last.Ends final → cursor.Ends final := by
  have begins := cursor.inside_beginsWith
  rw [content] at begins
  generalize restEq : cursor.rest = tokens at begins
  cases begins with
  | @element token rest name attributes kind =>
      refine ⟨token, rest, rfl, kind, tag_onto_of_opening kind cursor rest, rfl, ?_, ?_⟩
      · intro broken
        rcases Content.ofTokens_cases cursor.ending rest with ⟨_, _, _, _, spans⟩ | ⟨breakEq, noOuter, _⟩
        · exact absurd spans.break_eq_none broken
        · rw [noOuter]
          exact breakEq.symm
      · intro last ends
        have endingEq : last.ending = cursor.ending := ends.ending_eq
        have sourceEq : last.source = cursor.source := ends.source_eq
        obtain ⟨tokens, inner, split, spans, lastEq⟩ := ends
        rw [onto_rest] at split
        have folded := Content.ofTokens_of_spans spans cursor.ending last.rest
        rw [← split] at folded
        have lastInside : last.inside =
            (Content.ofTokens cursor.ending rest).2.headD (.broken cursor.ending) := by
          rw [folded, inside, endingEq]
          rfl
        refine ⟨lastInside, ?_⟩
        intro final finalEnds
        obtain ⟨tokens', closing, finalSplit, spans', finalEq⟩ := finalEnds
        obtain ⟨_, closingKind⟩ := spans'.closing_kind
        refine ⟨token :: tokens ++ inner :: tokens', closing, ?_, ?_, ?_⟩
        · rw [restEq, split, finalSplit]
          simp only [List.cons_append, List.append_assoc]
        · rw [content, ← lastInside]
          exact .element kind spans spans'
        · exact finalEq.trans (onto_eq_of_closing closingKind endingEq sourceEq _)

/-! ### Moves -/

def Completes {α : Type} (cursor : Cursor) (expected : Except ReadError α) (outcome : Outcome α) :
    Prop :=
  match expected with
  | .ok value => ∃ last, cursor.Ends last ∧ outcome = (.ok value, last)
  | .error error => ∃ last, outcome = (.error error, last)

theorem Completes.of_ends {α : Type} {cursor here : Cursor} {expected : Except ReadError α}
    {outcome : Outcome α} (completes : here.Completes expected outcome)
    (ends : ∀ last, here.Ends last → cursor.Ends last) : cursor.Completes expected outcome := by
  cases expected with
  | ok value =>
      obtain ⟨last, lastEnds, outcomeEq⟩ := completes
      exact ⟨last, ends last lastEnds, outcomeEq⟩
  | error error => exact completes

theorem endError_eq {α : Type} {context : Context} {cursor : Cursor} {ending : Ending}
    (sourceEq : cursor.source = context.source) (endingEq : cursor.ending = ending) :
    ∃ last, (cursor.endError : Outcome α) = (.error (context.breakError ending), last) := by
  cases ending with
  | failed error =>
      refine ⟨cursor, ?_⟩
      simp only [endError, endingEq, Context.breakError]
  | finished first again encoding =>
      refine ⟨cursor.onEnd first again encoding, ?_⟩
      simp only [endError, endingEq, Context.breakError, location, onEnd, Context.locate, sourceEq]

private theorem nextTextAmong_completes {context : Context} (content : Content) (cursor : Cursor)
    (sourceEq : cursor.source = context.source) (contentEq : cursor.inside = content)
    (before : String) :
    cursor.Completes ((before ++ ·) <$> context.textOf content)
      (nextTextAmong before cursor cursor.rest) := by
  induction content generalizing cursor before with
  | closed encoding =>
      obtain ⟨token, rest, name, restEq, kind, ends⟩ := inside_closed contentEq
      refine ⟨cursor.onto token rest, ends, ?_⟩
      simp only [restEq, nextTextAmong, kind, String.append_empty]
  | broken ending =>
      obtain ⟨restEq, endingEq⟩ := inside_broken contentEq
      rw [restEq]
      exact endError_eq sourceEq endingEq
  | text position text after ih =>
      obtain ⟨token, rest, restEq, kind, _, afterEq, ends⟩ := inside_text contentEq
      have following := ih (cursor.onto token rest) sourceEq afterEq (before ++ text)
      rw [restEq]
      simp only [nextTextAmong, kind]
      have expectedEq : ((before ++ ·) <$> context.textOf (.text position text after)) =
          ((before ++ text ++ ·) <$> context.textOf after) := by
        simp only [Context.textOf]
        cases context.textOf after with
        | error error => rfl
        | ok found =>
            change Except.ok (before ++ (text ++ found)) = Except.ok (before ++ text ++ found)
            rw [String.append_assoc]
      rw [expectedEq]
      exact following.of_ends ends
  | element tag within after _ _ =>
      obtain ⟨token, rest, restEq, kind, tagEq, _⟩ := inside_element contentEq
      refine ⟨cursor.onto token rest, ?_⟩
      have placeEq : (cursor.onto token rest).location = context.locate tag.position := by
        rw [← tagEq, tag_onto_of_opening kind, location_onto, sourceEq]
        rfl
      simp only [restEq, nextTextAmong, kind, placeEq]

theorem nextText_completes {context : Context} {cursor : Cursor}
    (sourceEq : cursor.source = context.source) :
    cursor.Completes (context.textOf cursor.inside) cursor.nextText := by
  have joined := nextTextAmong_completes cursor.inside cursor sourceEq rfl ""
  have expectedEq : (("" ++ ·) <$> context.textOf cursor.inside) = context.textOf cursor.inside := by
    cases context.textOf cursor.inside with
    | error error => rfl
    | ok text =>
        change Except.ok ("" ++ text) = Except.ok text
        rw [String.empty_append]
  rw [expectedEq] at joined
  exact joined

/-- Counting tags leads over the content of an element to its end tag.  `deeper` elements around it
are to be left after it. -/
private theorem skipAmong_inside (context : Context) (content : Content) (cursor : Cursor)
    (sourceEq : cursor.source = context.source) (contentEq : cursor.inside = content)
    (deeper : Nat) :
    match content.break? with
    | none => ∃ last, cursor.Ends last ∧ skipAmong (deeper + 1) cursor cursor.rest =
        if deeper = 0 then (.ok (), last) else skipAmong deeper last last.rest
    | some ending => ∃ last, skipAmong (deeper + 1) cursor cursor.rest =
        (.error (context.breakError ending), last) := by
  induction content generalizing cursor deeper with
  | closed encoding =>
      obtain ⟨token, rest, name, restEq, kind, ends⟩ := inside_closed contentEq
      refine ⟨cursor.onto token rest, ends, ?_⟩
      simp only [restEq, skipAmong, kind, onto_rest, Nat.add_sub_cancel]
      by_cases outermost : deeper = 0
      · simp only [outermost, Nat.zero_add, Nat.le_refl, if_true]
      · have deep : ¬ deeper + 1 ≤ 1 := by omega
        simp only [outermost, deep, if_false]
  | broken ending =>
      obtain ⟨restEq, endingEq⟩ := inside_broken contentEq
      rw [restEq]
      exact endError_eq sourceEq endingEq
  | text position text after ih =>
      obtain ⟨token, rest, restEq, kind, _, afterEq, ends⟩ := inside_text contentEq
      have following := ih (cursor.onto token rest) sourceEq afterEq deeper
      rw [restEq]
      simp only [skipAmong, kind, Content.break?]
      cases breakEq : after.break? with
      | none =>
          rw [breakEq] at following
          obtain ⟨last, lastEnds, skipped⟩ := following
          exact ⟨last, ends last lastEnds, skipped⟩
      | some ending =>
          rw [breakEq] at following
          exact following
  | element tag within after ihWithin ihAfter =>
      obtain ⟨token, rest, restEq, kind, _, withinEq, broken, afterwards⟩ := inside_element contentEq
      have inner := ihWithin (cursor.onto token rest) sourceEq withinEq (deeper + 1)
      rw [restEq]
      simp only [skipAmong, kind, Content.break?]
      cases withinBreak : within.break? with
      | none =>
          rw [withinBreak] at inner
          obtain ⟨last, lastEnds, skipped⟩ := inner
          obtain ⟨lastInside, ends⟩ := afterwards last lastEnds
          have lastSource : last.source = context.source := by
            rw [lastEnds.source_eq, onto_source, sourceEq]
          have following := ihAfter last lastSource lastInside deeper
          have skippedInner : skipAmong (deeper + 1 + 1) (cursor.onto token rest) rest =
              skipAmong (deeper + 1) last last.rest := by
            rw [onto_rest] at skipped
            rw [skipped, if_neg (Nat.succ_ne_zero deeper)]
          rw [skippedInner]
          cases afterBreak : after.break? with
          | none =>
              rw [afterBreak] at following
              obtain ⟨final, finalEnds, skippedAfter⟩ := following
              exact ⟨final, ends final finalEnds, skippedAfter⟩
          | some ending =>
              rw [afterBreak] at following
              exact following
      | some ending =>
          rw [withinBreak] at inner broken
          rw [broken (by simp)]
          exact inner

theorem skipElement_completes {context : Context} {cursor : Cursor}
    (sourceEq : cursor.source = context.source) :
    cursor.Completes (context.passContent cursor.inside) cursor.skipElement := by
  have skipped := skipAmong_inside context cursor.inside cursor sourceEq rfl 0
  unfold Context.passContent
  cases breakEq : cursor.inside.break? with
  | none =>
      rw [breakEq] at skipped
      exact skipped
  | some ending =>
      rw [breakEq] at skipped
      exact skipped

end Cursor

end Trellis.Reading
