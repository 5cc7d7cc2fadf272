import Trellis.Markup.Stretch
import Trellis.Proofs.Markup.Lapses

/-!
Tokens on demand.

A tokenizer takes characters only when it is asked for a token, and no more of them than that token
needs.  Now and then a character brings two tokens, as the end of an empty element does; then the
second is held back.  What it answers, asked again and again, are the tokens of the document and, where
they stand, its mistakes, and each token costs bytes or the token held back.
-/

namespace Trellis.Markup

open Text (utf8Length)

inductive Stop where
  | finished (position : Position) (encoding : String)
  | mistake (error : MarkupError) (glimpse : Glimpse)

structure Tokenizer where
  scanner : Scanner
  /-- The characters not yet taken. -/
  unread : List Char
  /-- The tokens that are found and not yet handed out. -/
  held : List Token
  /-- Present once nothing is to be found any more. -/
  finish? : Option Finish

namespace Tokenizer

def ofDocument (extended : Bool) (document : String) : Tokenizer :=
  ⟨.ofSource extended document.toList, withoutMark document.toList, [], none⟩

/-- The last tokens of a document, the first of them handed out; with none left, the end. -/
def conclude (scanner : Scanner) (unread : List Char) (finish : Finish) :
    List Token → Except Stop Token × Tokenizer
  | [] => (.error (.finished finish.first finish.encoding), ⟨scanner, unread, [], some finish.onceMore⟩)
  | token :: held => (.ok token, ⟨scanner, unread, held, some finish⟩)

/-- The tokenizer behind a mistake that the scanner notices at the character. -/
def behind (scanner : Scanner) (c : Char) (unread : List Char) (error : MarkupError) : Tokenizer :=
  if error.canBePassed then
    let onward := scanner.passMistake c
    ⟨{ onward with emitted := [] }, unread, onward.emitted.reverse, none⟩
  else
    let after := scanner.step c
    ⟨after, unread, [], some (after.finishAt (after.reached error))⟩

/-- Takes characters until they bring a token or a mistake, or until there is none. -/
def scan (scanner : Scanner) : List Char → Except Stop Token × Tokenizer
  | [] =>
      match scanner.finish.ending with
      | .finished first again encoding =>
          conclude scanner [] ⟨first, again, encoding⟩ scanner.finish.tokens
      | .failed error =>
          (.error (.mistake error (scanner.glimpse error)),
            ⟨scanner, [], [], some (scanner.finishBehind error)⟩)
  | c :: rest =>
      let after := scanner.step c
      match after.mode with
      | .failed error =>
          (.error (.mistake error (scanner.glimpse error)), behind scanner c rest error)
      | _ =>
          match after.emitted.reverse with
          | [] => scan after rest
          | token :: held => (.ok token, ⟨{ after with emitted := [] }, rest, held, none⟩)

def next (tokenizer : Tokenizer) : Except Stop Token × Tokenizer :=
  match tokenizer.finish?, tokenizer.held with
  | some finish, held => conclude tokenizer.scanner tokenizer.unread finish held
  | none, token :: held => (.ok token, { tokenizer with held })
  | none, [] => scan tokenizer.scanner tokenizer.unread

/-- Twice the bytes not yet taken, and one more if a token is held back. -/
def measure (tokenizer : Tokenizer) : Nat :=
  2 * utf8Length tokenizer.unread + if tokenizer.held.isEmpty then 0 else 1

def stream (tokenizer : Tokenizer) : TokenStream :=
  match tokenizer.finish? with
  | some finish => ⟨tokenizer.held, finish.ending⟩
  | none =>
      let others := (tokenizer.unread.foldl Scanner.step tokenizer.scanner).finish
      ⟨tokenizer.held ++ others.tokens, others.ending⟩

def beyond (tokenizer : Tokenizer) : List Stretch :=
  match tokenizer.finish? with
  | some _ => []
  | none => tokenizer.scanner.beyond tokenizer.unread

end Tokenizer

/-! ### Tokens that are gone -/

namespace Scanner

def above (scanner : Scanner) (older : List Token) : Scanner :=
  { scanner with emitted := scanner.emitted ++ older }

section Above

variable (scanner : Scanner) (older : List Token)

private theorem endText_above (taken : List Char) :
    (scanner.above older).endText taken = (scanner.endText taken).above older := by
  simp only [endText, above]
  split
  · rfl
  · split <;> rfl

private theorem endPiece_above (piece : Piece) (text : List Char) :
    (scanner.above older).endPiece piece text = (scanner.endPiece piece text).above older := by
  cases piece with
  | element quote =>
      simp only [endPiece, endElement, above]
      split
      · rfl
      · split <;> rfl
  | closing =>
      simp only [endPiece, endClosing, above]
      split
      · rfl
      · split <;> rfl
  | instruction =>
      simp only [endPiece, endInstruction]
      split
      · split <;> rfl
      · rfl
  | comment =>
      simp only [endPiece, endComment]
      split <;> rfl
  | cdata =>
      simp only [endPiece, endCdata]
      split <;> rfl
  | doctype =>
      simp only [endPiece, endDoctype]
      split
      · split <;> rfl
      · rfl

private theorem stepInside_above (piece : Piece) (taken : List Char) (c : Char) :
    (scanner.above older).stepInside piece taken c =
      (scanner.stepInside piece taken c).above older := by
  unfold stepInside
  split
  · exact endPiece_above _ _ _ _
  · rfl

theorem step_above (c : Char) : (scanner.above older).step c = (scanner.step c).above older := by
  cases modeEq : scanner.mode with
  | failed error =>
      have failed : scanner.Failed := ⟨error, modeEq⟩
      have failed' : (scanner.above older).Failed := ⟨error, modeEq⟩
      rw [step_of_failed failed, step_of_failed failed']
  | text taken =>
      have modeEq' : (scanner.above older).mode = .text taken := modeEq
      by_cases sign : c = '<'
      · rw [sign]
        by_cases nothing : taken = []
        · rw [nothing] at modeEq modeEq'
          rw [step_sign_nil modeEq, step_sign_nil modeEq']
          rfl
        · cases decoded : decode scanner.extended taken.reverse with
          | ok content =>
              rw [step_sign_ok modeEq nothing decoded, step_sign_ok modeEq' nothing decoded]
              rfl
          | error error =>
              rw [step_sign_error modeEq nothing decoded, step_sign_error modeEq' nothing decoded]
              rfl
      · rw [step_text modeEq sign, step_text modeEq' sign]
        rfl
  | tag =>
      have modeEq' : (scanner.above older).mode = .tag := modeEq
      simp only [step, modeEq, modeEq']
      split
      · rfl
      · split
        · rfl
        · split
          · rfl
          · exact stepInside_above { scanner with offset := scanner.offset + c.utf8Size } _ _ _ _
  | bang =>
      have modeEq' : (scanner.above older).mode = .bang := modeEq
      simp only [step, modeEq, modeEq']
      rfl
  | inside piece taken =>
      have modeEq' : (scanner.above older).mode = .inside piece taken := modeEq
      simp only [step, modeEq, modeEq']
      exact stepInside_above { scanner with offset := scanner.offset + c.utf8Size } _ _ _ _

private theorem foldl_step_above (chars : List Char) :
    chars.foldl step (scanner.above older) = (chars.foldl step scanner).above older := by
  induction chars generalizing scanner with
  | nil => rfl
  | cons c rest ih => rw [List.foldl_cons, step_above, ih, List.foldl_cons]

private theorem finishedAt_above (early : Nat) :
    (scanner.above older).finishedAt early =
      ⟨older.reverse ++ (scanner.finishedAt early).tokens, (scanner.finishedAt early).ending⟩ := by
  simp only [finishedAt, above, ended]
  split <;> simp only [List.reverse_append]

private theorem finish_above :
    (scanner.above older).finish =
      ⟨older.reverse ++ scanner.finish.tokens, scanner.finish.ending⟩ := by
  have modeEq : (scanner.above older).mode = scanner.mode := rfl
  have endedEq (ending : Ending) : (scanner.above older).ended ending =
      ⟨older.reverse ++ (scanner.ended ending).tokens, (scanner.ended ending).ending⟩ := by
    simp only [above, ended, List.reverse_append]
  unfold finish
  rw [modeEq]
  cases scanner.mode with
  | failed error => exact endedEq _
  | text taken =>
      simp only [endText_above]
      exact finishedAt_above _ _ _
  | tag => exact finishedAt_above _ _ _
  | bang => exact endedEq _
  | inside piece taken =>
      simp only
      split
      · exact endedEq _
      · rw [endPiece_above]
        exact finishedAt_above _ _ _

private theorem beyond_above (chars : List Char) :
    (scanner.above older).beyond chars = scanner.beyond chars := by
  induction chars generalizing scanner with
  | nil =>
      simp only [beyond, finish_above]
      rfl
  | cons c rest ih =>
      simp only [beyond, step_above]
      have modeEq : ((scanner.step c).above older).mode = (scanner.step c).mode := rfl
      rw [modeEq, ih]
      rfl

private theorem finish_foldl_cleared (chars : List Char) :
    (chars.foldl step scanner).finish =
      ⟨scanner.emitted.reverse ++ (chars.foldl step { scanner with emitted := [] }).finish.tokens,
        (chars.foldl step { scanner with emitted := [] }).finish.ending⟩ := by
  have split := finish_above (chars.foldl step { scanner with emitted := [] }) scanner.emitted
  rw [← foldl_step_above] at split
  exact split

end Above

/-! ### What one character brings -/

/-- Of what comes next nothing has been taken but perhaps its opening sign. -/
def AtBoundary (scanner : Scanner) : Prop :=
  scanner.mode = .text [] ∨ scanner.mode = .tag

/-- The tokens that one character can bring: two of them only as an empty element. -/
inductive Brought : List Token → Prop where
  | nothing : Brought []
  | single (token : Token) : Brought [token]
  | emptyElement {opening closing : Token} {name : String} {attributes : List (String × String)}
      (openingKind : opening.kind = .opening name attributes)
      (closingKind : closing.kind = .closing name) : Brought [opening, closing]

/-- The tokens emitted can have come at once, and if there are any, the scanner is at a boundary. -/
structure Brings (scanner : Scanner) : Prop where
  brought : Brought scanner.emitted.reverse
  boundary : scanner.emitted = [] ∨ scanner.AtBoundary

theorem AtBoundary.alive {scanner : Scanner} (boundary : scanner.AtBoundary) : ¬ scanner.Failed := by
  rintro ⟨error, failed⟩
  rcases boundary with modeEq | modeEq <;> (rw [modeEq] at failed; cases failed)

theorem Brings.emitted_of_failed {scanner : Scanner} (brings : scanner.Brings) (failed : scanner.Failed) :
    scanner.emitted = [] :=
  brings.boundary.resolve_right fun boundary => boundary.alive failed

theorem Brings.of_clear {scanner : Scanner} (clear : scanner.emitted = []) : scanner.Brings := by
  refine ⟨?_, .inl clear⟩
  rw [clear]
  exact .nothing

theorem Brings.of_single {scanner : Scanner} {token : Token} (emittedEq : scanner.emitted = [token])
    (boundary : scanner.AtBoundary) : scanner.Brings := by
  refine ⟨?_, .inr boundary⟩
  rw [emittedEq]
  exact .single token

/-- Of a tag that is passed over, no more than an end tag is left. -/
private theorem brings_passMistake (scanner : Scanner) (c : Char) :
    (scanner.passMistake c).AtBoundary ∧ ((scanner.passMistake c).emitted = [] ∨
      ∃ closing name, (scanner.passMistake c).emitted = [closing] ∧ closing.kind = .closing name) := by
  unfold passMistake
  split
  · simp only [passTag]
    split
    · exact ⟨.inl rfl, .inr ⟨_, _, rfl, rfl⟩⟩
    · exact ⟨.inl rfl, .inl rfl⟩
  · exact ⟨.inr rfl, .inl rfl⟩

section Clear

variable {scanner : Scanner} (clear : scanner.emitted = [])

include clear

private theorem brought_endText (taken : List Char) : Brought
    (scanner.endText taken).emitted.reverse := by
  unfold endText
  split
  · exact (Brings.of_clear clear).brought
  · split
    · simp only [emit, clear]
      exact .single _
    · exact (Brings.of_clear clear).brought

private theorem brings_endPiece (piece : Piece) (text : List Char) :
    (scanner.endPiece piece text).Brings := by
  cases piece with
  | element quote =>
      simp only [endPiece, endElement]
      split
      · exact .of_clear clear
      · split
        · refine ⟨?_, .inr (.inl rfl)⟩
          simp only [beginText, emit, clear]
          exact .emptyElement rfl rfl
        · exact .of_single (congrArg (List.cons _) clear) (.inl rfl)
  | closing =>
      simp only [endPiece, endClosing]
      split
      · exact .of_clear clear
      · split
        · exact .of_single (congrArg (List.cons _) clear) (.inl rfl)
        · exact .of_clear clear
  | instruction =>
      simp only [endPiece, endInstruction]
      split
      · split <;> exact .of_clear clear
      · exact .of_clear clear
  | comment =>
      simp only [endPiece, endComment]
      split <;> exact .of_clear clear
  | cdata =>
      simp only [endPiece, endCdata]
      split
      · exact .of_single (congrArg (List.cons _) clear) (.inl rfl)
      · exact .of_clear clear
  | doctype =>
      simp only [endPiece, endDoctype]
      split
      · split <;> exact .of_clear clear
      · exact .of_clear clear

private theorem brings_stepInside (piece : Piece) (taken : List Char) (c : Char) :
    (scanner.stepInside piece taken c).Brings := by
  unfold stepInside
  split
  · exact brings_endPiece clear _ _
  · exact .of_clear clear

theorem brings_step (c : Char) : (scanner.step c).Brings := by
  cases modeEq : scanner.mode with
  | failed error =>
      rw [step_of_failed ⟨error, modeEq⟩]
      exact .of_clear clear
  | text taken =>
      by_cases sign : c = '<'
      · rw [sign]
        by_cases nothing : taken = []
        · rw [nothing] at modeEq
          rw [step_sign_nil modeEq]
          exact .of_clear clear
        · cases decoded : decode scanner.extended taken.reverse with
          | ok content =>
              rw [step_sign_ok modeEq nothing decoded]
              exact .of_single (congrArg (List.cons _) clear) (.inr rfl)
          | error error =>
              rw [step_sign_error modeEq nothing decoded]
              exact .of_clear clear
      · rw [step_text modeEq sign]
        exact .of_clear clear
  | tag =>
      have next : { scanner with offset := scanner.offset + c.utf8Size }.emitted = [] := clear
      simp only [step, modeEq]
      split
      · exact .of_clear clear
      · split
        · exact .of_clear clear
        · split
          · exact .of_clear clear
          · rw [modeEq] at next
            exact brings_stepInside next _ _ _
  | bang =>
      simp only [step, modeEq]
      exact .of_clear clear
  | inside piece taken =>
      have next : { scanner with offset := scanner.offset + c.utf8Size }.emitted = [] := clear
      simp only [step, modeEq]
      rw [modeEq] at next
      exact brings_stepInside next _ _ _

private theorem brought_finish : Brought scanner.finish.tokens := by
  have still : Brought scanner.emitted.reverse := (Brings.of_clear clear).brought
  unfold finish
  split
  · exact still
  · rw [finishedAt_tokens]
    exact brought_endText clear _
  · rw [finishedAt_tokens]
    exact still
  · exact still
  · split
    · exact still
    · rw [finishedAt_tokens]
      exact (brings_endPiece clear _ _).brought

private theorem finish_tokens_of_failed {error : MarkupError}
    (failed : scanner.finish.ending = .failed error) :
    scanner.finish.tokens = [] := by
  have nothing : scanner.emitted.reverse = [] := by rw [clear, List.reverse_nil]
  unfold finish at failed ⊢
  cases modeEq : scanner.mode with
  | failed mistake => exact nothing
  | text taken =>
      rw [modeEq] at failed
      have failed := mode_of_finishedAt failed
      simp only [finishedAt_tokens]
      unfold endText at failed ⊢
      split
      · exact nothing
      · rename_i filled
        rw [if_neg filled] at failed
        split
        · rename_i decoded
          simp only [decoded, emit, modeEq] at failed
          cases failed
        · exact nothing
  | tag =>
      rw [finishedAt_tokens]
      exact nothing
  | bang => exact nothing
  | inside piece taken =>
      rw [modeEq] at failed
      simp only at failed ⊢
      split
      · exact nothing
      · rename_i mayEnd
        rw [mayEnd] at failed
        have brings := brings_endPiece clear piece taken.reverse
        rw [finishedAt_tokens, brings.emitted_of_failed ⟨error, mode_of_finishedAt failed⟩,
          List.reverse_nil]

private theorem finish_tokens_of_boundary (boundary : scanner.AtBoundary) : scanner.finish.tokens =
    [] := by
  unfold finish
  rcases boundary with modeEq | modeEq
  · simp only [modeEq, finishedAt_tokens, endText, List.isEmpty_nil, if_true, clear, List.reverse_nil]
  · simp only [modeEq, finishedAt_tokens, clear, List.reverse_nil]

end Clear

end Scanner

/-! ### What a call answers -/

namespace Tokenizer

open Scanner (Brought)

/-- After the token nothing is held back but the end of the empty element it begins. -/
def HeldAfter (token : Token) (held : List Token) : Prop :=
  held = [] ∨ ∃ name attributes closing, token.kind = .opening name attributes ∧
    closing.kind = .closing name ∧ held = [closing]

def HeldClosing (held : List Token) : Prop :=
  held = [] ∨ ∃ closing name, held = [closing] ∧ closing.kind = .closing name

structure Ready (tokenizer : Tokenizer) : Prop where
  clear : tokenizer.finish? = none → tokenizer.scanner.emitted = []
  boundary : tokenizer.finish? = none → tokenizer.scanner.AtBoundary
  held : HeldClosing tokenizer.held

theorem ready_ofDocument (extended : Bool) (document : String) :
    (ofDocument extended document).Ready :=
  ⟨fun _ => rfl, fun _ => .inl rfl, .inl rfl⟩

private theorem ready_of_finish {tokenizer : Tokenizer} {finish : Finish}
    (finished : tokenizer.finish? = some finish) (held : HeldClosing tokenizer.held) :
    tokenizer.Ready := by
  constructor
  case held => exact held
  all_goals
    intro unfinished
    rw [finished] at unfinished
    cases unfinished

/-- The right answer when the tokens of the stream are still to be handed out, and then what comes
behind mistakes: the first token, and then the measure is below the bound; or the end; or the mistake,
and then the next stretch is to be handed out. -/
inductive Answers (stream : TokenStream) (beyond : List Stretch) (bound : Nat) :
    Except Stop Token × Tokenizer → Prop where
  | token {token : Token} {later : Tokenizer} (ready : later.Ready)
      (streamEq : stream = ⟨token :: later.stream.tokens, later.stream.ending⟩)
      (beyondEq : beyond = later.beyond) (heldAfter : HeldAfter token later.held)
      (costs : later.measure < bound) : Answers stream beyond bound (.ok token, later)
  | finished {finish : Finish} {later : Tokenizer} (ready : later.Ready)
      (streamEq : stream = ⟨[], finish.ending⟩) (beyondEq : beyond = [])
      (again : later.stream = ⟨[], finish.onceMore.ending⟩) (nothing : later.beyond = [])
      (costs : later.measure ≤ bound) :
      Answers stream beyond bound (.error (.finished finish.first finish.encoding), later)
  | mistake {error : MarkupError} {glimpse : Glimpse} {later : Tokenizer} (ready : later.Ready)
      (streamEq : stream = ⟨[], .failed error⟩)
      (beyondEq : beyond = ⟨glimpse, later.stream⟩ :: later.beyond) (costs : later.measure ≤ bound) :
      Answers stream beyond bound (.error (.mistake error glimpse), later)

private theorem heldAfter_of_brought {token : Token} {held : List Token}
    (brought : Brought (token :: held)) : HeldAfter token held := by
  cases brought with
  | single => exact .inl rfl
  | emptyElement openingKind closingKind => exact .inr ⟨_, _, _, openingKind, closingKind, rfl⟩

private theorem HeldAfter.heldClosing {token : Token} {held : List Token}
    (heldAfter : HeldAfter token held) : HeldClosing held := by
  rcases heldAfter with nothing | ⟨name, _, closing, _, closingKind, heldEq⟩
  · exact .inl nothing
  · exact .inr ⟨closing, name, heldEq, closingKind⟩

variable {scanner : Scanner} {unread rest : List Char} {bound : Nat}

private theorem conclude_answers (finish : Finish) {tokens : List Token} (brought : Brought tokens)
    (costs : ∀ token held, tokens = token :: held →
      2 * utf8Length unread + (if held.isEmpty then 0 else 1) < bound)
    (spare : 2 * utf8Length unread ≤ bound) :
    Answers ⟨tokens, finish.ending⟩ [] bound (conclude scanner unread finish tokens) := by
  cases tokens with
  | nil => exact .finished (ready_of_finish rfl (.inl rfl)) rfl rfl rfl rfl spare
  | cons token held =>
      have heldAfter := heldAfter_of_brought brought
      exact .token (ready_of_finish rfl heldAfter.heldClosing) rfl rfl heldAfter (costs token held rfl)

private theorem heldCost_le (held : List Token) : (if held.isEmpty then 0 else 1) ≤ 1 := by
  split <;> omega

private theorem behind_ready (scanner : Scanner) (c : Char) (error : MarkupError) :
    (behind scanner c rest error).Ready := by
  unfold behind
  split
  · obtain ⟨boundary, held⟩ := Scanner.brings_passMistake scanner c
    refine ⟨fun _ => rfl, fun _ => boundary, ?_⟩
    rcases held with nothing | ⟨closing, name, single, kind⟩
    · exact .inl (List.reverse_eq_nil_iff.2 nothing)
    · simp only [single]
      exact .inr ⟨closing, name, rfl, kind⟩
  · exact ready_of_finish rfl (.inl rfl)

private theorem behind_measure (scanner : Scanner) (c : Char) (error : MarkupError) :
    (behind scanner c rest error).measure ≤ 2 * utf8Length rest + 1 := by
  unfold behind
  split
  · exact Nat.add_le_add_left (heldCost_le _) _
  · exact Nat.le_succ _

private theorem beyond_eq_behind {c : Char} {error : MarkupError}
    (failed : (scanner.step c).mode = .failed error) :
    scanner.beyond (c :: rest) =
      ⟨scanner.glimpse error, (behind scanner c rest error).stream⟩ ::
        (behind scanner c rest error).beyond := by
  cases canBePassed : error.canBePassed with
  | true =>
      have cleared := Scanner.beyond_above { scanner.passMistake c with emitted := [] }
        (scanner.passMistake c).emitted rest
      have cleared : (scanner.passMistake c).beyond rest = _ := cleared
      rw [Scanner.beyond_of_failed failed canBePassed, Scanner.finish_foldl_cleared, cleared]
      simp only [behind, canBePassed, if_true]
      rfl
  | false =>
      simp only [Scanner.beyond, behind, failed, canBePassed, Bool.false_eq_true, if_false]
      rfl

private theorem scan_cons_answers (clear : scanner.emitted = []) (c : Char)
    (spare : 2 * utf8Length rest + 1 < bound)
    (others : ∀ after : Scanner, after.emitted = [] →
      Answers (rest.foldl Scanner.step after).finish (after.beyond rest) bound (scan after rest)) :
    Answers ((c :: rest).foldl Scanner.step scanner).finish (scanner.beyond (c :: rest)) bound
      (scan scanner (c :: rest)) := by
  have brings := Scanner.brings_step clear c
  by_cases alive : (scanner.step c).Failed
  · obtain ⟨error, failed⟩ := alive
    have answerEq : scan scanner (c :: rest) =
        (.error (.mistake error (scanner.glimpse error)), behind scanner c rest error) := by
      simp only [scan, failed]
    have nothing := brings.emitted_of_failed ⟨error, failed⟩
    rw [answerEq, List.foldl_cons, Scanner.foldl_step_of_failed ⟨error, failed⟩,
      Scanner.finish_of_failed failed]
    refine .mistake (behind_ready scanner c error) ?_ (beyond_eq_behind failed) ?_
    · rw [Scanner.ended, nothing, List.reverse_nil]
    · exact Nat.le_trans (behind_measure scanner c error) (Nat.le_of_lt spare)
  · rw [Scanner.beyond_of_alive alive, List.foldl_cons, scan]
    generalize scanner.step c = after at brings alive ⊢
    split
    · rename_i error modeEq
      exact absurd ⟨error, modeEq⟩ alive
    · split
      · rename_i emittedEq
        exact others after (List.reverse_eq_nil_iff.1 emittedEq)
      · rename_i token held emittedEq
        have brought := brings.brought
        rw [emittedEq] at brought
        have filled : after.emitted ≠ [] := by
          intro nothing
          rw [nothing] at emittedEq
          cases emittedEq
        have heldAfter := heldAfter_of_brought brought
        refine .token ⟨fun _ => rfl, fun _ => brings.boundary.resolve_left filled,
          heldAfter.heldClosing⟩ ?_ ?_ heldAfter ?_
        -- What is handed out now does not matter for what the scanner finds later.
        · rw [Scanner.finish_foldl_cleared, emittedEq]
          rfl
        · exact Scanner.beyond_above { after with emitted := [] } after.emitted rest
        · have cost := heldCost_le held
          simp only [measure]
          omega

private theorem scan_nil_answers (clear : scanner.emitted = [])
    (spare : scanner.finish.tokens = [] ∨ 1 < bound) :
    Answers scanner.finish (scanner.beyond []) bound (scan scanner []) := by
  rw [scan, Scanner.beyond]
  cases endingEq : scanner.finish.ending with
  | finished first again encoding =>
      have streamEq : scanner.finish =
          ⟨scanner.finish.tokens, (Finish.mk first again encoding).ending⟩ := by
        rw [Finish.ending, ← endingEq]
      have costs (token : Token) (held : List Token) (tokensEq : scanner.finish.tokens = token :: held) :
          2 * utf8Length [] + (if held.isEmpty then 0 else 1) < bound := by
        have cost := heldCost_le held
        rcases spare with nothing | spare
        · rw [nothing] at tokensEq
          cases tokensEq
        · rw [Text.utf8Length_nil]
          omega
      have answers := @conclude_answers scanner [] bound ⟨first, again, encoding⟩ _
        (Scanner.brought_finish clear) costs (Nat.zero_le _)
      rwa [← streamEq] at answers
  | failed error =>
      refine .mistake (ready_of_finish rfl (.inl rfl)) ?_ rfl (Nat.zero_le _)
      rw [← endingEq, ← Scanner.finish_tokens_of_failed clear endingEq]

private theorem scan_answers (clear : scanner.emitted = [])
    (spare : 2 * utf8Length unread + 1 < bound) :
    Answers (unread.foldl Scanner.step scanner).finish (scanner.beyond unread) bound
      (scan scanner unread) := by
  induction unread generalizing scanner with
  | nil => exact scan_nil_answers clear (.inr spare)
  | cons c rest ih =>
      rw [Text.utf8Length_cons] at spare
      apply scan_cons_answers clear c (by omega)
      intro after afterClear
      exact ih afterClear (by omega)

/-- Every call answers with the next token, at a cost, or with the end or a mistake. -/
theorem next_answers {tokenizer : Tokenizer} (ready : tokenizer.Ready) :
    Answers tokenizer.stream tokenizer.beyond tokenizer.measure tokenizer.next := by
  obtain ⟨scanner, unread, held, finish?⟩ := tokenizer
  obtain ⟨clear, boundary, heldReady⟩ := ready
  simp only at clear boundary heldReady
  cases finish? with
  | some finish =>
      rcases heldReady with rfl | ⟨closing, name, rfl, _⟩
      · refine conclude_answers finish .nothing ?_ (Nat.le_refl _)
        intro token held none
        cases none
      · apply conclude_answers finish (.single closing)
        · intro token held heldEq
          cases heldEq
          exact Nat.lt_succ_self _
        · exact Nat.le_succ _
  | none =>
      have scannerClear : scanner.emitted = [] := clear rfl
      rcases heldReady with rfl | ⟨closing, name, rfl, _⟩
      · cases unread with
        | nil =>
            exact scan_nil_answers scannerClear
              (.inl (Scanner.finish_tokens_of_boundary scannerClear (boundary rfl)))
        | cons c rest =>
            have size := c.utf8Size_pos
            have enough : 2 * utf8Length rest + 1 < 2 * utf8Length (c :: rest) := by
              rw [Text.utf8Length_cons]
              omega
            exact scan_cons_answers scannerClear c enough fun after afterClear =>
              scan_answers afterClear enough
      · exact .token ⟨fun _ => scannerClear, fun _ => boundary rfl, .inl rfl⟩ rfl rfl (.inl rfl)
          (Nat.lt_succ_self _)

private abbrev lengthBeyond (beyond : List Stretch) : Nat :=
  (beyond.flatMap (·.stream.tokens)).length

private theorem length_stretch_le {beyond : List Stretch} {tokens : List Token}
    (enough : ∀ {tokenizer : Tokenizer}, tokenizer.Ready → tokenizer.stream.tokens = [] →
      tokenizer.beyond = beyond → lengthBeyond beyond ≤ tokenizer.measure)
    {tokenizer : Tokenizer} (ready : tokenizer.Ready) (tokensEq : tokenizer.stream.tokens = tokens)
    (beyondEq : tokenizer.beyond = beyond) :
    tokens.length + lengthBeyond beyond ≤ tokenizer.measure := by
  induction tokens generalizing tokenizer with
  | nil =>
      rw [List.length_nil, Nat.zero_add]
      exact enough ready tokensEq beyondEq
  | cons token rest ih =>
      have answers := next_answers ready
      generalize tokenizer.next = outcome at answers
      cases answers with
      | token laterReady streamEq laterBeyondEq _ costs =>
          rw [streamEq] at tokensEq
          have others := ih laterReady (List.cons.inj tokensEq).2 (laterBeyondEq ▸ beyondEq)
          rw [List.length_cons]
          omega
      | finished _ streamEq =>
          rw [streamEq] at tokensEq
          cases tokensEq
      | mistake _ streamEq =>
          rw [streamEq] at tokensEq
          cases tokensEq

private theorem lengthBeyond_le {beyond : List Stretch} {tokenizer : Tokenizer}
    (ready : tokenizer.Ready) (noToken : tokenizer.stream.tokens = [])
    (beyondEq : tokenizer.beyond = beyond) : lengthBeyond beyond ≤ tokenizer.measure := by
  induction beyond generalizing tokenizer with
  | nil => exact Nat.zero_le _
  | cons stretch beyond ih =>
      have answers := next_answers ready
      generalize tokenizer.next = outcome at answers
      cases answers with
      | token _ streamEq =>
          rw [streamEq] at noToken
          cases noToken
      | finished _ _ nothing =>
          rw [nothing] at beyondEq
          cases beyondEq
      | mistake laterReady _ laterEq costs =>
          rw [beyondEq] at laterEq
          obtain ⟨rfl, tailEq⟩ := List.cons.inj laterEq
          have later := length_stretch_le ih laterReady rfl tailEq.symm
          rw [lengthBeyond, List.flatMap_cons, List.length_append]
          exact Nat.le_trans later costs

theorem length_stream_le {tokenizer : Tokenizer} (ready : tokenizer.Ready) :
    tokenizer.stream.tokens.length ≤ tokenizer.measure :=
  Nat.le_trans (Nat.le_add_right _ _) (length_stretch_le lengthBeyond_le ready rfl rfl)

theorem measure_ofDocument_le (extended : Bool) (document : String) :
    (ofDocument extended document).measure ≤ 2 * document.utf8ByteSize := by
  rw [Text.utf8ByteSize_eq]
  exact Nat.mul_le_mul_left 2 (utf8Length_withoutMark document.toList)

end Tokenizer

end Trellis.Markup
