import Trellis.Markup.Content

/-!
The end tag of an element.

The tokens inside an element are those up to the end tag that brings the count of start tags less
end tags below zero for the first time.  Folding tokens into content goes by the same rule without
counting: the content of an element is made of exactly these tokens, whatever follows them.  In the
tokens of a document that end tag has the name of the start tag, since the scanner refuses any
other.
-/

namespace Trellis.Markup

/-! ### Counting tags -/

def Token.rise (token : Token) : Int :=
  match token.kind with
  | .opening _ _ => 1
  | .closing _ => -1
  | .text _ => 0

def depth (tokens : List Token) : Int :=
  tokens.foldr (fun token depth => token.rise + depth) 0

/-- Nowhere an end tag too many. -/
def Rising (tokens : List Token) : Prop :=
  ∀ first, first <+: tokens → 0 ≤ depth first

structure Balanced (tokens : List Token) : Prop where
  depth_eq : depth tokens = 0
  rising : Rising tokens

@[simp] theorem depth_nil : depth [] = 0 := rfl

@[simp] theorem depth_cons (token : Token) (rest : List Token) :
    depth (token :: rest) = token.rise + depth rest := rfl

@[simp] theorem depth_append (left right : List Token) :
    depth (left ++ right) = depth left + depth right := by
  induction left with
  | nil => simp
  | cons token rest ih => simp [ih, Int.add_assoc]

theorem Token.rise_of_opening {token : Token} {name : String} {attributes : List (String × String)}
    (kind : token.kind = .opening name attributes) : token.rise = 1 := by
  simp only [Token.rise, kind]

theorem Token.rise_of_closing {token : Token} {name : String} (kind : token.kind = .closing name) :
    token.rise = -1 := by
  simp only [Token.rise, kind]

theorem Token.rise_of_text {token : Token} {content : String} (kind : token.kind = .text content) :
    token.rise = 0 := by
  simp only [Token.rise, kind]

theorem Rising.nil : Rising [] := by
  intro first isFirst
  rw [List.prefix_nil.1 isFirst]
  exact Int.le_refl _

theorem Rising.cons {token : Token} {rest : List Token} (up : 0 ≤ token.rise)
    (rising : Rising rest) :
    Rising (token :: rest) := by
  intro first isFirst
  rcases List.prefix_cons_iff.1 isFirst with rfl | ⟨remaining, rfl, isFirst'⟩
  · exact Int.le_refl _
  · rw [depth_cons]
    have bound := rising remaining isFirst'
    omega

theorem Rising.element {opening closing : Token} {inside rest : List Token} (up : opening.rise = 1)
    (down : closing.rise = -1) (balanced : Balanced inside) (rising : Rising rest) :
    Rising (opening :: inside ++ closing :: rest) := by
  have insideEq := balanced.depth_eq
  intro first isFirst
  rw [List.cons_append] at isFirst
  rcases List.prefix_cons_iff.1 isFirst with rfl | ⟨afterOpening, rfl, remaining, split⟩
  · exact Int.le_refl _
  · rw [depth_cons, up]
    rcases List.append_eq_append_iff.1 split with
      ⟨tail, insideSplit, _⟩ | ⟨afterInside, rfl, restSplit⟩
    · have bound := balanced.rising afterOpening ⟨tail, insideSplit.symm⟩
      omega
    · rw [depth_append]
      rcases List.prefix_cons_iff.1 ⟨remaining, restSplit.symm⟩ with
        rfl | ⟨afterClosing, rfl, isFirst'⟩
      · rw [depth_nil]
        omega
      · have bound := rising afterClosing isFirst'
        rw [depth_cons]
        omega

theorem Balanced.nil : Balanced [] :=
  ⟨rfl, .nil⟩

theorem Balanced.text {token : Token} {rest : List Token} (level : token.rise = 0)
    (balanced : Balanced rest) : Balanced (token :: rest) := by
  constructor
  · rw [depth_cons, level, balanced.depth_eq]
    rfl
  · apply Rising.cons _ balanced.rising
    omega

theorem Balanced.element {opening closing : Token} {inside rest : List Token}
    (up : opening.rise = 1) (down : closing.rise = -1)
    (balancedInside : Balanced inside) (balancedRest : Balanced rest) :
    Balanced (opening :: inside ++ closing :: rest) := by
  have insideEq := balancedInside.depth_eq
  have restEq := balancedRest.depth_eq
  constructor
  · simp only [List.cons_append, depth_cons, depth_append]
    omega
  · exact .element up down balancedInside balancedRest.rising

private theorem depth_congr {tokens tokens' : List Token}
    (kinds : tokens.map (·.kind) = tokens'.map (·.kind)) : depth tokens = depth tokens' := by
  induction tokens generalizing tokens' with
  | nil => rw [List.map_eq_nil_iff.1 kinds.symm]
  | cons token tokens ih =>
      cases tokens' with
      | nil => cases kinds
      | cons token' tokens' =>
          simp only [List.map_cons, List.cons.injEq] at kinds
          have same : token.rise = token'.rise := by simp only [Token.rise, kinds.1]
          rw [depth_cons, depth_cons, same, ih kinds.2]

theorem Balanced.congr {tokens tokens' : List Token} (balanced : Balanced tokens)
    (kinds : tokens.map (·.kind) = tokens'.map (·.kind)) : Balanced tokens' := by
  refine ⟨(depth_congr kinds).symm.trans balanced.depth_eq, ?_⟩
  intro first isFirst
  have firstKinds : (tokens.take first.length).map (·.kind) = first.map (·.kind) := by
    rw [List.map_take, kinds, ← List.map_take, ← List.prefix_iff_eq_take.1 isFirst]
  rw [← depth_congr firstKinds]
  exact balanced.rising _ (List.take_prefix _ _)

theorem Balanced.not_rising {tokens after : List Token} {closing : Token}
    (balanced : Balanced tokens) (down : closing.rise = -1) :
    ¬ Rising (tokens ++ closing :: after) := by
  intro rising
  have isFirst : tokens ++ [closing] <+: tokens ++ closing :: after := by
    exact ⟨after, by simp⟩
  have bound := rising _ isFirst
  have tokensEq := balanced.depth_eq
  rw [depth_append, depth_cons, depth_nil] at bound
  omega

/-- The end tag that brings the count below zero for the first time is one and no other. -/
theorem Balanced.end_unique {left right after after' : List Token} {closing closing' : Token}
    (balanced : Balanced left) (balanced' : Balanced right) (down : closing.rise = -1)
    (down' : closing'.rise = -1) (same : left ++ closing :: after = right ++ closing' :: after') :
    left = right ∧ closing = closing' ∧ after = after' := by
  rcases List.append_eq_append_iff.1 same with ⟨tail, rightEq, split⟩ | ⟨tail, leftEq, split⟩
  · cases tail with
    | nil =>
        rw [List.append_nil] at rightEq
        cases split
        exact ⟨rightEq.symm, rfl, rfl⟩
    | cons first tail =>
        cases split
        rw [rightEq] at balanced'
        exact absurd balanced'.rising (balanced.not_rising down)
  · cases tail with
    | nil =>
        rw [List.append_nil] at leftEq
        cases split
        exact ⟨leftEq, rfl, rfl⟩
    | cons first tail =>
        cases split
        rw [leftEq] at balanced
        exact absurd balanced.rising (balanced'.not_rising down')

/-! ### The tokens of a content -/

/-- The content of an element is made of the tokens up to its end tag. -/
inductive Content.Spans : Content → List Token → Token → Prop where
  | closed {name : String} {closing : Token} (kind : closing.kind = .closing name) :
      Spans (.closed closing.encoding) [] closing
  | text {content : String} {rest : Content} {token closing : Token} {tokens : List Token}
      (kind : token.kind = .text content) (spans : Spans rest tokens closing) :
      Spans (.text token.position content rest) (token :: tokens) closing
  | element {name : String} {attributes : List (String × String)} {inside rest : Content}
      {opening inner closing : Token} {tokens after : List Token}
      (kind : opening.kind = .opening name attributes) (spansInside : Spans inside tokens inner)
      (spansRest : Spans rest after closing) :
      Spans (.element ⟨name, attributes, opening.position⟩ inside rest)
        (opening :: tokens ++ inner :: after) closing

theorem Content.Spans.closing_kind {content : Content} {tokens : List Token} {closing : Token}
    (spans : content.Spans tokens closing) : ∃ name, closing.kind = .closing name := by
  induction spans with
  | closed kind => exact ⟨_, kind⟩
  | text _ _ ih => exact ih
  | element _ _ _ _ ih => exact ih

theorem Content.Spans.balanced {content : Content} {tokens : List Token} {closing : Token}
    (spans : content.Spans tokens closing) : Balanced tokens := by
  induction spans with
  | closed _ => exact .nil
  | text kind _ ih =>
      exact .text (Token.rise_of_text kind) ih
  | element kind spansInside _ ihInside ihRest =>
      obtain ⟨_, innerKind⟩ := spansInside.closing_kind
      exact .element (Token.rise_of_opening kind) (Token.rise_of_closing innerKind) ihInside ihRest

theorem Content.Spans.break_eq_none {content : Content} {tokens : List Token} {closing : Token}
    (spans : content.Spans tokens closing) : content.break? = none := by
  induction spans with
  | closed _ => rfl
  | text _ _ ih => exact ih
  | element _ _ _ _ ih => exact ih

theorem Content.Spans.encoding_eq {content : Content} {tokens : List Token} {closing : Token}
    (spans : content.Spans tokens closing) : content.encoding? = some closing.encoding := by
  induction spans with
  | closed _ => rfl
  | text _ _ ih => exact ih
  | element _ _ _ _ ih => exact ih

theorem Content.ofTokens_of_spans {content : Content} {tokens : List Token} {closing : Token}
    (spans : content.Spans tokens closing) (ending : Ending) (rest : List Token) :
    ofTokens ending (tokens ++ closing :: rest) =
      (content, (ofTokens ending rest).1 :: (ofTokens ending rest).2) := by
  induction spans generalizing rest with
  | closed kind => simp only [List.nil_append, ofTokens, kind]
  | text kind _ ih => simp only [List.cons_append, ofTokens, kind, ih]
  | element kind _ _ ihInside ihRest =>
      simp only [List.cons_append, List.append_assoc, ofTokens, kind, ihInside, ihRest]

/-- Tokens either begin with a content up to its end tag, or end inside it and inside all content
around it. -/
theorem Content.ofTokens_cases (ending : Ending) (tokens : List Token) :
    (∃ first closing rest, tokens = first ++ closing :: rest ∧
      (ofTokens ending tokens).1.Spans first closing) ∨
    ((ofTokens ending tokens).1.break? = some ending ∧ (ofTokens ending tokens).2 = [] ∧
      Rising tokens) := by
  match tokens with
  | [] => exact .inr ⟨rfl, rfl, .nil⟩
  | token :: rest =>
      have tail := ofTokens_cases ending rest
      cases kind : token.kind with
      | closing name =>
          simp only [ofTokens, kind]
          exact .inl ⟨[], token, rest, rfl, .closed kind⟩
      | text content =>
          simp only [ofTokens, kind]
          rcases tail with ⟨first, closing, after, rfl, spans⟩ | ⟨broken, noOuter, rising⟩
          · exact .inl ⟨token :: first, closing, after, rfl, .text kind spans⟩
          · have level := Token.rise_of_text kind
            exact .inr ⟨broken, noOuter, .cons (by omega) rising⟩
      | opening name attributes =>
          have up := Token.rise_of_opening kind
          simp only [ofTokens, kind]
          rcases tail with ⟨first, closing, after, restEq, spans⟩ | ⟨broken, noOuter, rising⟩
          · have shorter : after.length < rest.length := by
              rw [restEq, List.length_append, List.length_cons]
              omega
            have afterwards := ofTokens_cases ending after
            have folded := ofTokens_of_spans spans ending after
            rw [← restEq] at folded
            rw [folded]
            rcases afterwards with ⟨second, closing', after', rfl, spans'⟩ | ⟨broken, noOuter, rising⟩
            · refine .inl ⟨token :: first ++ closing :: second, closing', after', ?_,
                .element kind spans spans'⟩
              rw [restEq]
              simp only [List.cons_append, List.append_assoc]
            · obtain ⟨_, closingKind⟩ := spans.closing_kind
              refine .inr ⟨broken, noOuter, ?_⟩
              rw [restEq]
              exact .element up (Token.rise_of_closing closingKind) spans.balanced rising
          · rw [noOuter]
            exact .inr ⟨rfl, rfl, .cons (by omega) rising⟩
termination_by tokens.length

/-- The end tag found by counting is the one up to which content is folded. -/
theorem Content.spans_of_balanced {tokens : List Token} {closing : Token} {name : String}
    (balanced : Balanced tokens) (kind : closing.kind = .closing name) (ending : Ending)
    (after : List Token) :
    (ofTokens ending (tokens ++ closing :: after)).1.Spans tokens closing := by
  have down := Token.rise_of_closing kind
  rcases ofTokens_cases ending (tokens ++ closing :: after) with
    ⟨first, closing', after', split, spans⟩ | ⟨_, _, rising⟩
  · obtain ⟨_, kind'⟩ := spans.closing_kind
    obtain ⟨tokensEq, closingEq, _⟩ :=
      balanced.end_unique spans.balanced down (Token.rise_of_closing kind') split
    rw [tokensEq, closingEq]
    rw [tokensEq, closingEq] at spans
    exact spans
  · exact absurd rising (balanced.not_rising down)

/-! ### Names of end tags -/

/-- The names of the open elements, innermost first, after one more token.  An end tag of another
element than the innermost one has no place. -/
def openAfter (opened : List String) (token : Token) : Option (List String) :=
  match token.kind with
  | .opening name _ => some (name :: opened)
  | .text _ => some opened
  | .closing name =>
      match opened with
      | [] => none
      | expected :: outer => if name = expected then some outer else none

theorem openAfter_of_closing {opened after : List String} {expected name : String} {token : Token}
    (kind : token.kind = .closing name) (step : openAfter (expected :: opened) token = some after) :
    name = expected ∧ after = opened := by
  simp only [openAfter, kind] at step
  split at step
  · rename_i same
    cases step
    exact ⟨same, rfl⟩
  · cases step

theorem Content.Spans.opened_eq {content : Content} {tokens : List Token} {closing : Token}
    (spans : content.Spans tokens closing) {opened after : List String}
    (run : tokens.foldlM openAfter opened = some after) : after = opened := by
  induction spans generalizing opened after with
  | closed _ =>
      cases run
      rfl
  | text kind _ ih =>
      simp only [List.foldlM_cons, openAfter, kind] at run
      exact ih run
  | element kind spansInside _ ihInside ihRest =>
      simp only [List.cons_append, List.foldlM_cons, List.foldlM_append, openAfter, kind,
        Option.bind_eq_bind, Option.bind_some] at run
      obtain ⟨inside, insideRun, run⟩ := Option.bind_eq_some_iff.1 run
      rw [ihInside insideRun] at run
      obtain ⟨outside, step, run⟩ := Option.bind_eq_some_iff.1 run
      obtain ⟨_, innerKind⟩ := spansInside.closing_kind
      rw [(openAfter_of_closing innerKind step).2] at run
      exact ihRest run

theorem Content.Spans.closing_name {content : Content} {tokens : List Token} {closing : Token}
    (spans : content.Spans tokens closing) {name : String} {opened after : List String}
    {rest : List Token}
    (run : (tokens ++ closing :: rest).foldlM openAfter (name :: opened) = some after) :
    closing.kind = .closing name := by
  rw [List.foldlM_append] at run
  obtain ⟨inside, insideRun, run⟩ := Option.bind_eq_some_iff.1 run
  rw [spans.opened_eq insideRun, List.foldlM_cons] at run
  obtain ⟨outside, step, _⟩ := Option.bind_eq_some_iff.1 run
  obtain ⟨found, kind⟩ := spans.closing_kind
  rw [kind, (openAfter_of_closing kind step).1]

/-! ### The scanner refuses other end tags -/

namespace Scanner

/-- The elements that the scanner holds open are those that its tokens leave open. -/
def Matches (scanner : Scanner) : Prop :=
  scanner.emitted.reverse.foldlM openAfter [] = some scanner.opened

theorem Matches.emit {scanner : Scanner} (found : scanner.Matches) {kind : TokenKind}
    {opened : List String}
    (step : ∀ token : Token, token.kind = kind → openAfter scanner.opened token = some opened)
    (mark : Nat) : Matches { scanner.emit kind mark with opened } := by
  unfold Matches at found ⊢
  simp only [Scanner.emit, List.reverse_cons, List.foldlM_append, found, List.foldlM_cons,
    List.foldlM_nil, Option.bind_eq_bind, Option.bind_some]
  rw [step _ rfl]
  rfl

theorem Matches.endText {scanner : Scanner} (found : scanner.Matches) (taken : List Char) :
    (scanner.endText taken).Matches := by
  unfold Scanner.endText
  split
  · exact found
  · split
    · rename_i content _
      have step (token : Token) (kind : token.kind = .text content) :
          openAfter scanner.opened token = some scanner.opened := by
        simp only [openAfter, kind]
      exact found.emit step scanner.start
    · exact found

theorem Matches.endClosing {scanner : Scanner} (found : scanner.Matches) (text : List Char) :
    (scanner.endClosing text).Matches := by
  unfold Scanner.endClosing
  cases openedEq : scanner.opened with
  | nil => exact found
  | cons expected opened =>
      simp only
      split
      · rename_i same
        have step (token : Token) (kind : token.kind = .closing (String.ofList (closingName text))) :
            openAfter scanner.opened token = some opened := by
          simp only [openAfter, kind, openedEq, same, if_true]
        exact found.emit step scanner.start
      · exact found

theorem Matches.endElement {scanner : Scanner} (found : scanner.Matches) (text : List Char) :
    (scanner.endElement text).Matches := by
  unfold Scanner.endElement
  generalize nameEq : String.ofList
    ((if text.getLast? = some '/' then text.dropLast else text).takeWhile (!isTagBlank ·)) = name
  simp only [nameEq]
  split
  · exact found
  · rename_i attributes _
    have stepOpening (token : Token) (kind : token.kind = .opening name attributes) :
        openAfter scanner.opened token = some (name :: scanner.opened) := by
      simp only [openAfter, kind]
    have opening := found.emit stepOpening scanner.start
    split
    · have stepClosing (token : Token) (kind : token.kind = .closing name) :
          openAfter (name :: scanner.opened) token = some scanner.opened := by
        simp only [openAfter, kind, if_true]
      exact opening.emit stepClosing scanner.offset
    · exact opening

theorem Matches.endPiece {scanner : Scanner} (found : scanner.Matches) (piece : Piece)
    (text : List Char) : (scanner.endPiece piece text).Matches := by
  cases piece with
  | element quote => exact found.endElement text
  | closing => exact found.endClosing text
  | instruction =>
      simp only [Scanner.endPiece, Scanner.endInstruction]
      split
      · split <;> exact found
      · exact found
  | comment =>
      simp only [Scanner.endPiece, Scanner.endComment]
      split <;> exact found
  | cdata =>
      simp only [Scanner.endPiece, Scanner.endCdata]
      split
      · have step (token : Token)
            (kind : token.kind = .text (String.ofList ((text.drop 7).take (text.length - 9)))) :
            openAfter scanner.opened token = some scanner.opened := by
          simp only [openAfter, kind]
        exact found.emit step scanner.start
      · exact found
  | doctype =>
      simp only [Scanner.endPiece, Scanner.endDoctype]
      split
      · split <;> exact found
      · exact found

theorem Matches.stepInside {scanner : Scanner} (found : scanner.Matches) (piece : Piece)
    (taken : List Char) (c : Char) : (scanner.stepInside piece taken c).Matches := by
  unfold Scanner.stepInside
  split
  · exact found.endPiece piece taken.reverse
  · exact found

theorem Matches.step {scanner : Scanner} (found : scanner.Matches) (c : Char) :
    (scanner.step c).Matches := by
  have next : Matches { scanner with offset := scanner.offset + c.utf8Size } := found
  unfold Scanner.step
  simp only
  split
  · exact found
  · split
    · have ended := next.endText
      split <;> exact ended _
    · exact found
  · split
    · exact found
    · split
      · exact found
      · split
        · exact found
        · exact next.stepInside _ _ _
  · exact found
  · exact next.stepInside _ _ _

theorem Matches.foldl_step {scanner : Scanner} (found : scanner.Matches) (text : List Char) :
    (text.foldl Scanner.step scanner).Matches := by
  induction text generalizing scanner with
  | nil => exact found
  | cons c rest ih => exact ih (found.step c)

theorem Matches.finishedAt {scanner : Scanner} (found : scanner.Matches) (early : Nat) :
    (scanner.finishedAt early).tokens.foldlM openAfter [] = some scanner.opened := by
  unfold Scanner.finishedAt
  split <;> exact found

theorem Matches.finish {scanner : Scanner} (found : scanner.Matches) :
    ∃ opened, scanner.finish.tokens.foldlM openAfter [] = some opened := by
  unfold Scanner.finish
  split
  · exact ⟨_, found⟩
  · exact ⟨_, (found.endText _).finishedAt _⟩
  · exact ⟨_, found.finishedAt _⟩
  · exact ⟨_, found⟩
  · split
    · exact ⟨_, found⟩
    · exact ⟨_, (found.endPiece _ _).finishedAt _⟩

end Scanner

/-- In the tokens of a document every end tag has the name of the innermost open element. -/
private theorem foldlM_openAfter_tokenize (extended : Bool) (document : String) :
    ∃ opened, (tokenize extended document).tokens.foldlM openAfter [] = some opened := by
  have start : (Scanner.ofSource extended document.toList).Matches := rfl
  exact (start.foldl_step _).finish

theorem foldlM_openAfter_of_opening {extended : Bool} {document : String} {before rest : List Token}
    {token : Token} {name : String} {attributes : List (String × String)}
    (split : (tokenize extended document).tokens = before ++ token :: rest)
    (kind : token.kind = .opening name attributes) :
    ∃ opened after, rest.foldlM openAfter (name :: opened) = some after := by
  obtain ⟨after, run⟩ := foldlM_openAfter_tokenize extended document
  rw [split, List.foldlM_append] at run
  obtain ⟨opened, _, run⟩ := Option.bind_eq_some_iff.1 run
  simp only [List.foldlM_cons, openAfter, kind, Option.bind_eq_bind, Option.bind_some] at run
  exact ⟨opened, after, run⟩

end Trellis.Markup
