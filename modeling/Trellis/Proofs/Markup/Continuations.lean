import Trellis.Proofs.Markup.Attributes
import Trellis.Proofs.Markup.Passages
import Trellis.Proofs.Markup.Texts

/-!
Two scanners on the same characters.

The characters may begin documents that go on differently, and the second scanner may know more names
of characters than the first.  As long as the first scanner does not fail, the two emit the same
tokens at the same positions, for a position depends on the characters passed alone.  Where the first
fails, the second may go on, so that what the first has emitted stays a beginning of what the second
emits.
-/

namespace Trellis.Markup

open Text (utf8Length)

/-! ### Positions in a document that goes on -/

theorem Scanner.position_advanceOver_append {target offset line column : Nat} {text : List Char}
    (inside : target ≤ offset + utf8Length text) (more : List Char) :
    (Tracker.advanceOver target offset line column (text ++ more)).position =
      (Tracker.advanceOver target offset line column text).position := by
  induction text generalizing offset line column with
  | nil =>
      have reached : ¬ offset < target := by
        rw [Text.utf8Length_nil] at inside
        omega
      cases more with
      | nil => rfl
      | cons c rest => simp only [List.nil_append, Tracker.advanceOver, if_neg reached, Tracker.position]
  | cons c text ih =>
      rw [Text.utf8Length_cons, ← Nat.add_assoc] at inside
      rw [List.cons_append, Tracker.advanceOver, Tracker.advanceOver]
      split
      · split
        · exact ih inside
        · exact ih inside
      · rfl

theorem Scanner.positionAt_append_eq {source : List Char} {byte : Nat}
    (inside : byte ≤ utf8Length source) (more : List Char) :
    positionAt (source ++ more) byte = positionAt source byte := by
  apply position_advanceOver_append
  change byte ≤ 0 + utf8Length source
  rwa [Nat.zero_add]

/-! ### More names -/

private theorem expand_extended {extended extended' : Bool} (wider : extended = true → extended' = true)
    {start stop : Nat} {name text : List Char} (expanded : expand extended start stop name = .ok text) :
    expand extended' start stop name = .ok text := by
  cases extended with
  | true =>
      rw [wider rfl]
      exact expanded
  | false =>
      cases extended' with
      | false => exact expanded
      | true =>
          unfold expand at expanded ⊢
          split at expanded
          · exact expanded
          · split at expanded
            · rename_i found
              rw [namedText?_extended found]
              exact expanded
            · cases expanded

private theorem decodeFrom_extended {extended extended' : Bool}
    (wider : extended = true → extended' = true)
    {length offset : Nat} {reference? : Option OpenReference} {text found : List Char}
    (decoded : decodeFrom extended length offset reference? text = .ok found) :
    decodeFrom extended' length offset reference? text = .ok found := by
  induction text generalizing offset reference? found with
  | nil =>
      cases reference? with
      | none => exact decoded
      | some reference => cases decoded
  | cons c rest ih =>
      cases reference? with
      | none =>
          rw [decodeFrom] at decoded ⊢
          split at decoded
          · rename_i begins
            rw [if_pos begins]
            exact ih decoded
          · rename_i plain
            rw [if_neg plain]
            obtain ⟨later, restEq, rfl⟩ := map_eq_ok decoded
            rw [ih restEq]
            rfl
      | some reference =>
          by_cases ends : c = ';'
          · rw [ends, decodeFrom_semicolon] at decoded ⊢
            cases expandEq : expand extended reference.start offset reference.taken.reverse with
            | error error =>
                rw [expandEq] at decoded
                cases decoded
            | ok named =>
                rw [expandEq] at decoded
                obtain ⟨later, restEq, rfl⟩ := map_eq_ok decoded
                rw [expand_extended wider expandEq]
                change (named ++ ·) <$> decodeFrom extended' length (offset + 1) none rest = _
                rw [ih restEq]
                rfl
          · simp only [decodeFrom, if_neg ends] at decoded ⊢
            split at decoded
            · cases decoded
            · rename_i plain
              rw [if_neg plain]
              exact ih decoded

private theorem decode_extended {extended extended' : Bool} (wider : extended = true → extended' = true)
    {text : List Char} {content : String} (decoded : decode extended text = .ok content) :
    decode extended' text = .ok content := by
  unfold decode at decoded ⊢
  obtain ⟨found, textEq, rfl⟩ := map_eq_ok decoded
  rw [decodeFrom_extended wider textEq]
  rfl

private theorem decodeAttributes_extended {extended extended' : Bool}
    (wider : extended = true → extended' = true) {offset : Nat} {text : List Char}
    {attributes : List (String × String)}
    (decoded : decodeAttributes extended offset text = .ok attributes) :
    decodeAttributes extended' offset text = .ok attributes := by
  rw [decodeAttributes_eq_ok_iff] at decoded ⊢
  refine ⟨decoded.1, decoded.2.imp ?_⟩
  intro written pair means
  exact ⟨means.1, decode_extended wider means.2⟩

namespace Scanner

/-! ### Scanners that emit the same tokens -/

/-- The second scanner stands where the first does, behind the same characters, in a document that
begins with that of the first.  It knows all names that the first knows. -/
structure Attends (source source' : List Char) (scanner scanner' : Scanner) : Prop where
  wider : scanner.extended = true → scanner'.extended = true
  mode_eq : scanner'.mode = scanner.mode
  offset_eq : scanner'.offset = scanner.offset
  start_eq : scanner'.start = scanner.start
  opened_eq : scanner'.opened = scanner.opened
  encoding_eq : scanner'.encoding = scanner.encoding
  emitted_eq : scanner'.emitted = scanner.emitted
  tracks : ∃ passed ≤ scanner.offset, scanner.tracker = (Tracker.ofSource source).advance passed ∧
    scanner'.tracker = (Tracker.ofSource source').advance passed
  start_le : scanner.start ≤ scanner.offset
  offset_le : scanner.offset ≤ utf8Length source

/-- The second scanner stands where the first does, unless that one has failed; what the first has
emitted is a beginning of what the second has. -/
inductive Outlasts (source source' : List Char) (scanner scanner' : Scanner) : Prop
  | attends (attends : Attends source source' scanner scanner')
  | alone (failed : scanner.Failed) (emitted : scanner.emitted <:+ scanner'.emitted)

variable {source source' : List Char} {scanner scanner' : Scanner}

theorem Outlasts.emitted (outlasts : Outlasts source source' scanner scanner') :
    scanner.emitted <:+ scanner'.emitted := by
  cases outlasts with
  | attends attends => exact attends.emitted_eq ▸ List.suffix_refl _
  | alone _ emitted => exact emitted

namespace Attends

theorem turn (attends : Attends source source' scanner scanner') (mode : Mode)
    {start : Nat} (startLe : start ≤ scanner.offset) :
    Attends source source' { scanner with mode, start } { scanner' with mode, start } :=
  { attends with mode_eq := rfl, start_eq := rfl, start_le := startLe }

theorem beginText (attends : Attends source source' scanner scanner') :
    Attends source source' scanner.beginText scanner'.beginText := by
  have turned := attends.turn (.text []) (Nat.le_refl scanner.offset)
  have startEq : scanner'.beginText =
      { scanner' with mode := .text [], start := scanner.offset } := by
    rw [Scanner.beginText, attends.offset_eq]
  rw [startEq]
  exact turned

theorem goOn (attends : Attends source source' scanner scanner') (mode : Mode) :
    Attends source source' { scanner with mode } { scanner' with mode } :=
  { attends with mode_eq := rfl }

theorem fails (attends : Attends source source' scanner scanner') {after after' : Scanner}
    (failed : after.Failed) (same : after.emitted = scanner.emitted) (grows : Grows scanner' after') :
    Outlasts source source' after after' := by
  apply Outlasts.alone failed
  rw [same, ← attends.emitted_eq]
  exact grows.emitted

variable (isPrefix : source <+: source')
include isPrefix

theorem emit (attends : Attends source source' scanner scanner') (kind : TokenKind) {mark : Nat}
    (markLe : mark ≤ scanner.offset) :
    Attends source source' (scanner.emit kind mark) (scanner'.emit kind mark) := by
  obtain ⟨passed, passedLe, trackerEq, trackerEq'⟩ := attends.tracks
  have there : scanner.tracker.advance mark = (Tracker.ofSource source).advance (max passed mark) := by
    rw [trackerEq, Tracker.advance_advance]
  have there' : scanner'.tracker.advance mark =
      (Tracker.ofSource source').advance (max passed mark) := by
    rw [trackerEq', Tracker.advance_advance]
  have further : max passed mark ≤ scanner.offset := by omega
  have position : (scanner'.tracker.advance mark).position = (scanner.tracker.advance mark).position := by
    obtain ⟨more, rfl⟩ := isPrefix
    rw [there, there']
    exact positionAt_append_eq (Nat.le_trans further attends.offset_le) more
  refine ⟨attends.wider, attends.mode_eq, attends.offset_eq, attends.start_eq, attends.opened_eq,
    attends.encoding_eq, ?_, ⟨max passed mark, further, there, there'⟩, attends.start_le,
    attends.offset_le⟩
  simp only [Scanner.emit, position, attends.encoding_eq, attends.emitted_eq]

theorem endText (attends : Attends source source' scanner scanner') (taken : List Char) :
    Outlasts source source' (scanner.endText taken) (scanner'.endText taken) := by
  have grows := Grows.endText scanner' taken
  unfold Scanner.endText at grows ⊢
  split
  · exact .attends attends
  · rename_i filled
    cases decoded : decode scanner.extended taken.reverse with
    | ok content =>
        rw [decode_extended attends.wider decoded, attends.start_eq]
        exact .attends (attends.emit isPrefix _ attends.start_le)
    | error error =>
        rw [if_neg filled] at grows
        exact attends.fails ⟨_, rfl⟩ rfl grows

theorem endElement (attends : Attends source source' scanner scanner') (text : List Char) :
    Outlasts source source' (scanner.endElement text) (scanner'.endElement text) := by
  have grows := Grows.endPiece scanner' (.element none) text
  change Grows scanner' (scanner'.endElement text) at grows
  rw [endElement_eq] at grows
  rw [endElement_eq, endElement_eq]
  generalize tagBody text = body at grows ⊢
  simp only at grows ⊢
  cases decoded : tagAttributes scanner.extended body with
  | error error => exact attends.fails ⟨_, rfl⟩ rfl grows
  | ok attributes =>
      have opening := attends.emit isPrefix (.opening (tagName body) attributes) attends.start_le
      have decoded' : tagAttributes scanner'.extended body = .ok attributes :=
        decodeAttributes_extended attends.wider decoded
      rw [decoded', attends.start_eq, attends.offset_eq, attends.opened_eq]
      simp only
      split
      · exact .attends (opening.emit isPrefix (.closing (tagName body)) (Nat.le_refl _)).beginText
      · exact .attends (beginText { opening with opened_eq := rfl })

theorem endClosing (attends : Attends source source' scanner scanner') (text : List Char) :
    Outlasts source source' (scanner.endClosing text) (scanner'.endClosing text) := by
  have grows := Grows.endPiece scanner' .closing text
  simp only [Scanner.endPiece] at grows
  unfold Scanner.endClosing at grows ⊢
  rw [attends.opened_eq] at grows ⊢
  cases openedEq : scanner.opened with
  | nil =>
      rw [openedEq] at grows
      exact attends.fails ⟨_, rfl⟩ rfl grows
  | cons expected opened =>
      rw [openedEq] at grows
      simp only at grows ⊢
      split
      · have popped : Attends source source' { scanner with opened } { scanner' with opened } :=
          { attends with opened_eq := rfl }
        rw [attends.start_eq]
        exact .attends (popped.emit isPrefix _ attends.start_le).beginText
      · rename_i mismatched
        rw [if_neg mismatched] at grows
        exact attends.fails ⟨_, rfl⟩ rfl grows

theorem endPiece (attends : Attends source source' scanner scanner') (piece : Piece)
    (text : List Char) :
    Outlasts source source' (scanner.endPiece piece text) (scanner'.endPiece piece text) := by
  have grows := Grows.endPiece scanner' piece text
  cases piece with
  | element quote => exact attends.endElement isPrefix text
  | closing => exact attends.endClosing isPrefix text
  | instruction =>
      simp only [Scanner.endPiece, Scanner.endInstruction] at grows ⊢
      split
      · split
        · exact .attends (beginText { attends with encoding_eq := rfl })
        · exact .attends attends.beginText
      · exact attends.fails ⟨_, rfl⟩ rfl ⟨rfl, List.suffix_refl _⟩
  | comment =>
      simp only [Scanner.endPiece, Scanner.endComment]
      split
      · exact .attends attends.beginText
      · exact attends.fails ⟨_, rfl⟩ rfl ⟨rfl, List.suffix_refl _⟩
  | cdata =>
      simp only [Scanner.endPiece, Scanner.endCdata]
      split
      · rw [attends.start_eq]
        exact .attends (attends.emit isPrefix _ attends.start_le).beginText
      · exact attends.fails ⟨_, rfl⟩ rfl ⟨rfl, List.suffix_refl _⟩
  | doctype =>
      simp only [Scanner.endPiece, Scanner.endDoctype]
      split
      · split
        · exact attends.fails ⟨_, rfl⟩ rfl ⟨rfl, List.suffix_refl _⟩
        · exact .attends attends.beginText
      · exact attends.fails ⟨_, rfl⟩ rfl ⟨rfl, List.suffix_refl _⟩

theorem stepInside (attends : Attends source source' scanner scanner') (piece : Piece)
    (taken : List Char) (c : Char) :
    Outlasts source source' (scanner.stepInside piece taken c)
      (scanner'.stepInside piece taken c) := by
  unfold Scanner.stepInside
  split
  · exact attends.endPiece isPrefix piece taken.reverse
  · exact .attends (attends.goOn _)

theorem step_sign (attends : Attends source source' scanner scanner') {taken : List Char}
    (modeEq : scanner.mode = .text taken)
    (next : Attends source source' { scanner with offset := scanner.offset + '<'.utf8Size }
      { scanner' with offset := scanner'.offset + '<'.utf8Size }) :
    Outlasts source source' (scanner.step '<') (scanner'.step '<') := by
  have modeEq' := attends.mode_eq.trans modeEq
  have startLe : scanner.offset ≤ scanner.offset + '<'.utf8Size := Nat.le_add_right _ _
  have tagLe := Nat.le_trans attends.start_le startLe
  by_cases empty : taken = []
  · rw [empty] at modeEq modeEq'
    rw [step_sign_nil modeEq, step_sign_nil modeEq', attends.offset_eq]
    rw [attends.offset_eq] at next
    exact .attends (next.turn .tag startLe)
  · cases decoded : decode scanner.extended taken.reverse with
    | ok content =>
        have decoded' := decode_extended attends.wider decoded
        rw [step_sign_ok modeEq empty decoded, step_sign_ok modeEq' empty decoded', attends.offset_eq,
          attends.start_eq]
        have emitted := next.emit isPrefix (.text content) tagLe
        rw [attends.offset_eq] at emitted
        exact .attends (emitted.turn .tag startLe)
    | error error =>
        have grows := Grows.step scanner' '<'
        rw [step_sign_error modeEq empty decoded]
        exact attends.fails ⟨_, rfl⟩ rfl grows

theorem step (attends : Attends source source' scanner scanner') {c : Char}
    (within : scanner.offset + c.utf8Size ≤ utf8Length source) :
    Outlasts source source' (scanner.step c) (scanner'.step c) := by
  have next : Attends source source' { scanner with offset := scanner.offset + c.utf8Size }
      { scanner' with offset := scanner'.offset + c.utf8Size } := by
    obtain ⟨passed, passedLe, trackers⟩ := attends.tracks
    have startLe := attends.start_le
    exact ⟨attends.wider, attends.mode_eq, congrArg (· + c.utf8Size) attends.offset_eq,
      attends.start_eq, attends.opened_eq, attends.encoding_eq, attends.emitted_eq,
      ⟨passed, Nat.le_trans passedLe (Nat.le_add_right _ _), trackers⟩,
      Nat.le_trans startLe (Nat.le_add_right _ _), within⟩
  cases modeEq : scanner.mode with
  | failed error =>
      rw [step_of_failed ⟨error, modeEq⟩, step_of_failed ⟨error, attends.mode_eq.trans modeEq⟩]
      exact .attends attends
  | text taken =>
      by_cases sign : c = '<'
      · rw [sign] at next ⊢
        exact attends.step_sign isPrefix modeEq next
      · rw [step_text modeEq sign, step_text (attends.mode_eq.trans modeEq) sign]
        exact .attends (next.goOn _)
  | tag =>
      simp only [Scanner.step, attends.mode_eq, modeEq]
      split
      · exact .attends (next.goOn _)
      · split
        · exact .attends (next.goOn _)
        · split
          · exact .attends (next.goOn _)
          · exact next.stepInside isPrefix _ _ _
  | bang =>
      simp only [Scanner.step, attends.mode_eq, modeEq]
      exact .attends (next.goOn _)
  | inside piece taken =>
      simp only [Scanner.step, attends.mode_eq, modeEq]
      exact next.stepInside isPrefix _ _ _

end Attends

theorem attends_ofSource (source' : List Char) {extended extended' : Bool}
    (wider : extended = true → extended' = true) (source : List Char) :
    Attends source source' (ofSource extended source) (ofSource extended' source') where
  wider := wider
  mode_eq := rfl
  offset_eq := rfl
  start_eq := rfl
  opened_eq := rfl
  encoding_eq := rfl
  emitted_eq := rfl
  tracks := by
    refine ⟨0, Nat.le_refl _, ?_, ?_⟩
    · cases source <;> rfl
    · cases source' <;> rfl
  start_le := Nat.le_refl _
  offset_le := Nat.zero_le _

theorem Attends.foldl_step (attends : Attends source source' scanner scanner')
    (isPrefix : source <+: source') {chars : List Char}
    (within : scanner.offset + utf8Length chars ≤ utf8Length source) :
    Outlasts source source' (chars.foldl Scanner.step scanner) (chars.foldl Scanner.step scanner') := by
  induction chars generalizing scanner scanner' with
  | nil => exact .attends attends
  | cons c rest ih =>
      rw [Text.utf8Length_cons, ← Nat.add_assoc] at within
      rw [List.foldl_cons, List.foldl_cons]
      have further : scanner.offset + c.utf8Size ≤ utf8Length source := by omega
      cases attends.step isPrefix further with
      | attends here =>
          by_cases failed : scanner.Failed
          · have failed' : scanner'.Failed := by
              obtain ⟨error, modeEq⟩ := failed
              exact ⟨error, attends.mode_eq.trans modeEq⟩
            rw [step_of_failed failed, step_of_failed failed', foldl_step_of_failed failed,
              foldl_step_of_failed failed']
            exact .attends attends
          · have offsetEq := offset_step failed c
            rw [← offsetEq] at within
            exact ih here within
      | alone failed emitted =>
          rw [foldl_step_of_failed failed]
          exact .alone failed (emitted.trans (Grows.foldl_step _ rest).emitted)

/-- Where the first document ends, its tokens are a beginning of those that the second has by the end
there. -/
theorem Outlasts.finish (outlasts : Outlasts source source' scanner scanner')
    (isPrefix : source <+: source') : scanner.finish.tokens <+: scanner'.finish.tokens := by
  have goesOn := List.reverse_prefix.2 outlasts.emitted
  cases outlasts with
  | alone failed emitted =>
      obtain ⟨error, modeEq⟩ := failed
      rw [Scanner.finish, modeEq]
      exact goesOn.trans (emitted_finish _)
  | attends attends =>
      unfold Scanner.finish
      rw [attends.mode_eq]
      split
      · exact goesOn
      · rename_i taken _
        rw [finishedAt_tokens, finishedAt_tokens, List.reverse_prefix]
        exact (attends.endText isPrefix taken).emitted
      · rw [finishedAt_tokens, finishedAt_tokens]
        exact goesOn
      · exact goesOn
      · rename_i piece taken _
        split
        · exact goesOn
        · rw [finishedAt_tokens, finishedAt_tokens, List.reverse_prefix]
          exact (attends.endPiece isPrefix piece taken.reverse).emitted

end Scanner

end Trellis.Markup
