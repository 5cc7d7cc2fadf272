import Trellis.Proofs.Walk.Purposes

/-!
The course of a read.

The tokens that a cursor has passed tell which elements are open, and every move of the cursor is
described by them: it goes on to a start tag inside the open elements, leaves the innermost of them, or
ends with an error that is blamed on what has been passed.
-/

namespace Trellis.Reading

open Markup (Tag Token)

/-! ### Tokens passed -/

theorem isStart_of_opening {token : Token} {name : String} {attributes : List (String × String)}
    (kind : token.kind = .opening name attributes) : IsStart token ⟨name, attributes, token.position⟩ :=
  ⟨kind, rfl⟩

namespace Course

variable {course : Course}

theorem opened_concat (course : Course) (passed : List Token) (token : Token) :
    course.opened (passed ++ [token]) = course.openAfter (course.opened passed) token := by
  rw [opened, List.foldl_append]
  rfl

private theorem openAfter_of_start {token : Token} {tag : Tag} (isStart : IsStart token tag)
    (outer : List OpenElement) :
    course.openAfter outer token = ⟨tag, course.purposeOf outer tag.name⟩ :: outer := by
  rw [openAfter, isStart.kind_eq, isStart.position_eq]

theorem openAfter_of_text {token : Token} {content : String} (kind : token.kind = .text content)
    (outer : List OpenElement) : course.openAfter outer token = outer := by
  rw [openAfter, kind]

theorem openAfter_of_closing {token : Token} {name : String} (kind : token.kind = .closing name)
    (outer : List OpenElement) : course.openAfter outer token = outer.tail := by
  rw [openAfter, kind]

private theorem opened_append_texts {inside : List Token} {texts : List String}
    (insideEq : inside.map (·.kind) = texts.map .text) (passed : List Token) :
    course.opened (passed ++ inside) = course.opened passed := by
  induction texts generalizing passed inside with
  | nil => rw [List.map_eq_nil_iff.1 insideEq, List.append_nil]
  | cons text texts ih =>
      obtain ⟨token, rest, rfl, kind, restEq⟩ := List.map_eq_cons_iff.1 insideEq
      rw [List.append_cons, ih restEq, opened_concat, openAfter_of_text kind]

structure Passed (course : Course) (passed : List Token) (cursor : Cursor) : Prop where
  tokens_eq : course.stream.tokens = passed ++ cursor.rest
  ending_eq : cursor.ending = course.stream.ending
  source_eq : cursor.source = course.context.source

def Within (course : Course) (opened : List OpenElement) (cursor : Cursor) : Prop :=
  ∃ passed, course.Passed passed cursor ∧ course.opened passed = opened

def OnTag (course : Course) (tag : Tag) (outer : List OpenElement) (cursor : Cursor) : Prop :=
  cursor.tag = tag ∧ ∃ front token, course.Passed (front ++ [token]) cursor ∧ IsStart token tag ∧
    course.opened front = outer

def BehindText (course : Course) (tag : Tag) (outer : List OpenElement) (text : String)
    (cursor : Cursor) : Prop :=
  ∃ front opening inside closing texts name,
    course.Passed (front ++ opening :: (inside ++ [closing])) cursor ∧ IsStart opening tag ∧
      course.opened front = outer ∧ inside.map (·.kind) = texts.map .text ∧
      closing.kind = .closing name ∧ text = String.join texts

/-- The error says what is wrong with the tokens that the cursor has passed. -/
def Blamed (course : Course) (cursor : Cursor) (error : ReadError) : Prop :=
  ∃ passed, course.stream.tokens = passed ++ cursor.rest ∧ Blames course passed error

variable {passed : List Token} {opened outer : List OpenElement} {cursor : Cursor} {tag : Tag}

theorem Passed.onto (standing : course.Passed passed cursor) {token : Token} {rest : List Token}
    (restEq : cursor.rest = token :: rest) :
    course.Passed (passed ++ [token]) (cursor.onto token rest) where
  tokens_eq := by rw [standing.tokens_eq, restEq, List.append_cons, Cursor.onto_rest]
  ending_eq := standing.ending_eq
  source_eq := standing.source_eq

theorem Passed.within (standing : course.Passed passed cursor) :
    course.Within (course.opened passed) cursor :=
  ⟨passed, standing, rfl⟩

theorem Passed.onTag (standing : course.Passed passed cursor) {token : Token} {rest : List Token}
    (restEq : cursor.rest = token :: rest) {name : String} {attributes : List (String × String)}
    (kind : token.kind = .opening name attributes) :
    course.OnTag ⟨name, attributes, token.position⟩ (course.opened passed) (cursor.onto token rest) :=
  ⟨Cursor.tag_onto_of_opening kind cursor rest, passed, token, standing.onto restEq,
    isStart_of_opening kind, rfl⟩

theorem Passed.onto_closing (standing : course.Passed passed cursor) {token : Token}
    {rest : List Token} (restEq : cursor.rest = token :: rest) {name : String}
    (kind : token.kind = .closing name) :
    course.Within (course.opened passed).tail (cursor.onto token rest) := by
  have behind := (standing.onto restEq).within
  rwa [opened_concat, openAfter_of_closing kind] at behind

theorem OnTag.within (onTag : course.OnTag tag outer cursor) :
    course.Within (⟨tag, course.purposeOf outer tag.name⟩ :: outer) cursor := by
  obtain ⟨_, front, token, standing, isStart, rfl⟩ := onTag
  have inside := standing.within
  rwa [opened_concat, openAfter_of_start isStart] at inside

theorem BehindText.within {text : String} (behind : course.BehindText tag outer text cursor) :
    course.Within outer cursor := by
  obtain ⟨front, opening, inside, closing, texts, name, standing, isStart, rfl, insideEq, closingKind, _⟩ :=
    behind
  have there := standing.within
  rw [List.append_cons, ← List.append_assoc, opened_concat, opened_append_texts insideEq,
    opened_concat, openAfter_of_closing closingKind, openAfter_of_start isStart] at there
  exact there

/-! ### Blame -/

theorem OnTag.blamed_start (onTag : course.OnTag tag outer cursor) {className : String}
    {error : ReadError} (isEntity : course.purposeOf outer tag.name = .entity className)
    (startError : StartError course.context className tag error) : course.Blamed cursor error := by
  obtain ⟨_, front, token, standing, isStart, rfl⟩ := onTag
  exact ⟨_, standing.tokens_eq, .start isStart isEntity startError⟩

theorem OnTag.blamed_element (onTag : course.OnTag tag outer cursor) {error : ReadError}
    (elementError : ElementError course outer tag error) : course.Blamed cursor error := by
  obtain ⟨_, front, token, standing, isStart, rfl⟩ := onTag
  exact ⟨_, standing.tokens_eq, .element isStart elementError⟩

theorem Passed.blamed_end (standing : course.Passed passed cursor) (restEq : cursor.rest = []) :
    ∃ error last, (∀ α, (cursor.endError : Cursor.Outcome α) = (.error error, last)) ∧
      course.Blamed last error := by
  have tokensEq := standing.tokens_eq
  rw [restEq, List.append_nil] at tokensEq
  cases endingEq : cursor.ending with
  | failed error =>
      refine ⟨.markup error, cursor, fun α => ?_, course.stream.tokens, ?_, .markup ?_⟩
      · simp only [Cursor.endError, endingEq]
      · rw [restEq, List.append_nil]
      · rw [← standing.ending_eq, endingEq]
  | finished first again encoding =>
      rw [standing.ending_eq] at endingEq
      refine ⟨.unexpectedEnd (course.context.locate first), cursor.onEnd first again encoding,
        fun α => ?_, course.stream.tokens, (List.append_nil _).symm, .unexpectedEnd endingEq⟩
      simp only [Cursor.endError, standing.ending_eq, endingEq, Cursor.location, Cursor.onEnd,
        Context.locate, standing.source_eq]

/-! ### Moves -/

/-- A value comes with a cursor as told, and an error is blamed on what the cursor has passed. -/
def Comes {α : Type} (course : Course) (outcome : Cursor.Outcome α) (arrives : α → Cursor → Prop) : Prop :=
  match outcome.1 with
  | .ok value => arrives value outcome.2
  | .error error => course.Blamed outcome.2 error

theorem Passed.comes_end (standing : course.Passed passed cursor) (restEq : cursor.rest = [])
    {α : Type} {arrives : α → Cursor → Prop} : course.Comes cursor.endError arrives := by
  obtain ⟨error, last, outcomeEq, blamed⟩ := standing.blamed_end restEq
  rw [outcomeEq]
  exact blamed

inductive AtTag (course : Course) (opened : List OpenElement) : Mark → Cursor → Prop
  | opening {tag : Tag} {cursor : Cursor} (onTag : course.OnTag tag opened cursor) :
      AtTag course opened .opening cursor
  | closing {cursor : Cursor} (within : course.Within opened.tail cursor) :
      AtTag course opened .closing cursor

theorem Passed.nextTagAmong_comes {tokens : List Token} (standing : course.Passed passed cursor)
    (restEq : cursor.rest = tokens) :
    course.Comes (Cursor.nextTagAmong course.context.strict cursor tokens)
      (course.AtTag (course.opened passed)) := by
  induction tokens generalizing passed cursor with
  | nil => exact standing.comes_end restEq
  | cons token rest ih =>
      have there := standing.onto restEq
      rw [Cursor.nextTagAmong]
      cases kind : token.kind with
      | opening name attributes =>
          simp only [Cursor.markOf, kind]
          exact .opening (standing.onTag restEq kind)
      | closing name =>
          simp only [Cursor.markOf, kind]
          exact .closing (standing.onto_closing restEq kind)
      | text content =>
          simp only
          split
          · rename_i refused
            simp only [Bool.and_eq_true, Bool.not_eq_true'] at refused
            have blames : Blames course (passed ++ [token])
                (.unexpectedText (course.context.locate token.position)) :=
              .text kind refused.1 refused.2
            rw [Cursor.location_onto, standing.source_eq]
            exact ⟨_, there.tokens_eq, blames⟩
          · have further := ih there rfl
            rwa [opened_concat, openAfter_of_text kind] at further

theorem Within.nextTag_comes (within : course.Within opened cursor) :
    course.Comes (cursor.nextTag course.context.strict) (course.AtTag opened) := by
  obtain ⟨passed, standing, rfl⟩ := within
  exact standing.nextTagAmong_comes rfl

private theorem nextTextAmong_comes {tokens front inside : List Token} {opening : Token}
    (texts : List String)
    (standing : course.Passed (front ++ opening :: inside) cursor)
    (isStart : IsStart opening tag) (insideEq : inside.map (·.kind) = texts.map .text)
    (restEq : cursor.rest = tokens) :
    course.Comes (Cursor.nextTextAmong (String.join texts) cursor tokens)
      (course.BehindText tag (course.opened front)) := by
  induction tokens generalizing inside texts cursor with
  | nil => exact standing.comes_end restEq
  | cons token rest ih =>
      have there := standing.onto restEq
      rw [Cursor.nextTextAmong]
      cases kind : token.kind with
      | opening name attributes =>
          simp only
          have onTag := standing.onTag restEq kind
          have placeEq : (cursor.onto token rest).location = course.context.locate token.position := by
            rw [Cursor.location_onto, standing.source_eq]
            rfl
          rw [placeEq]
          exact onTag.blamed_element .unexpected
      | closing name =>
          rw [List.append_assoc, List.cons_append] at there
          exact ⟨front, opening, inside, token, texts, name, there, isStart, rfl, insideEq, kind, rfl⟩
      | text content =>
          simp only
          rw [List.append_assoc, List.cons_append] at there
          have joinEq : String.join texts ++ content = String.join (texts ++ [content]) := by
            rw [String.join_append, String.join_cons, String.join_nil, String.append_empty]
          rw [joinEq]
          refine ih _ there ?_ rfl
          rw [List.map_append, List.map_append, insideEq, List.map_singleton, List.map_singleton, kind]

theorem OnTag.nextText_comes (onTag : course.OnTag tag outer cursor) :
    course.Comes cursor.nextText (course.BehindText tag outer) := by
  obtain ⟨_, front, opening, standing, isStart, rfl⟩ := onTag
  exact nextTextAmong_comes [] standing isStart rfl rfl

theorem Passed.skipAmong_comes {tokens : List Token} (inner : List OpenElement)
    (standing : course.Passed passed cursor) (openedEq : course.opened passed = inner ++ outer)
    (filled : inner ≠ []) (restEq : cursor.rest = tokens) :
    course.Comes (Cursor.skipAmong inner.length cursor tokens) fun _ => course.Within outer := by
  induction tokens generalizing passed cursor inner with
  | nil => exact standing.comes_end restEq
  | cons token rest ih =>
      have there := standing.onto restEq
      have openedThere := course.opened_concat passed token
      rw [openedEq] at openedThere
      rw [Cursor.skipAmong]
      cases kind : token.kind with
      | opening name attributes =>
          rw [openAfter_of_start (isStart_of_opening kind), ← List.cons_append] at openedThere
          exact ih _ there openedThere (List.cons_ne_nil _ _) rfl
      | text content =>
          rw [openAfter_of_text kind] at openedThere
          exact ih _ there openedThere filled rfl
      | closing name =>
          obtain ⟨innermost, others, rfl⟩ := List.exists_cons_of_ne_nil filled
          rw [openAfter_of_closing kind, List.cons_append, List.tail_cons] at openedThere
          simp only [List.length_cons, Nat.add_sub_cancel]
          split
          · rename_i last
            have none : others = [] := List.length_eq_zero_iff.1 (by omega)
            rw [none, List.nil_append] at openedThere
            exact ⟨_, there, openedThere⟩
          · rename_i more
            have filledOthers : others ≠ [] := by
              rintro rfl
              exact more (by simp)
            exact ih _ there openedThere filledOthers rfl

theorem OnTag.skipElement_comes (onTag : course.OnTag tag outer cursor) :
    course.Comes cursor.skipElement fun _ => course.Within outer := by
  obtain ⟨passed, standing, openedEq⟩ := onTag.within
  exact standing.skipAmong_comes [_] openedEq (List.cons_ne_nil _ _) rfl

end Course

end Trellis.Reading
