import Trellis.Proofs.Markup.Framing

/-!
The positions that the scanner gives to tokens.

The tracker has never gone further than the text or piece in the making begins, so that the position
of a token is that of a byte of the document, however the scanner came there.
-/

namespace Trellis.Markup

open Text (utf8Length)

namespace Scanner

/-- The position that is reported for the byte of the document. -/
def positionAt (source : List Char) (byte : Nat) : Position :=
  ((Tracker.ofSource source).advance byte).position

def placeBehind (text : List Char) : Position :=
  text.foldl place ⟨1, 1⟩
where
  place (here : Position) (c : Char) : Position :=
    if c = '\n' then ⟨here.line + 1, 1⟩ else ⟨here.line, here.column + 1⟩

private theorem position_advanceOver (text rest : List Char) (offset line column : Nat) :
    (Tracker.advanceOver (offset + utf8Length text) offset line column (text ++ rest)).position =
      text.foldl placeBehind.place ⟨line + 1, column + 1⟩ := by
  induction text generalizing offset line column with
  | nil => cases rest <;> simp [Tracker.advanceOver, Tracker.position]
  | cons c text ih =>
      have begins : offset < offset + utf8Length (c :: text) := by
        have size := c.utf8Size_pos
        rw [Text.utf8Length_cons]
        omega
      rw [List.cons_append, Tracker.advanceOver, if_pos begins, Text.utf8Length_cons, ← Nat.add_assoc,
        List.foldl_cons, placeBehind.place]
      split
      · exact ih _ _ _
      · exact ih _ _ _

/-- Positions are places in the document where bytes are counted from its beginning. -/
theorem positionAt_append (text rest : List Char) :
    positionAt (text ++ rest) (utf8Length text) = placeBehind text := by
  have there := position_advanceOver text rest 0 0 0
  rwa [Nat.zero_add] at there

/-- The tracker has not gone further than the byte. -/
def TracksTo (source : List Char) (byte : Nat) (tracker : Tracker) : Prop :=
  ∃ passed, tracker = (Tracker.ofSource source).advance passed ∧ passed ≤ byte

/-- The scanner knows where the text or piece in the making begins, and its tracker has not gone
further. -/
structure Placed (source : List Char) (scanner : Scanner) : Prop where
  tracks : TracksTo source scanner.start scanner.tracker
  start_le : scanner.start ≤ scanner.offset
  text : ∀ taken, scanner.mode = .text taken → scanner.offset = scanner.start + utf8Length taken

variable {source : List Char} {scanner : Scanner}

theorem TracksTo.advance_eq {tracker : Tracker} {byte mark : Nat}
    (tracks : TracksTo source byte tracker) (later : byte ≤ mark) :
    tracker.advance mark = (Tracker.ofSource source).advance mark := by
  obtain ⟨passed, trackerEq, bound⟩ := tracks
  rw [trackerEq, Tracker.advance_advance]
  congr 1
  omega

theorem TracksTo.weaken {tracker : Tracker} {byte later : Nat} (tracks : TracksTo source byte tracker)
    (bound : byte ≤ later) : TracksTo source later tracker := by
  obtain ⟨passed, trackerEq, passedBound⟩ := tracks
  exact ⟨passed, trackerEq, by omega⟩

theorem TracksTo.advance {tracker : Tracker} {byte mark : Nat}
    (tracks : TracksTo source byte tracker) (later : byte ≤ mark) :
    TracksTo source mark (tracker.advance mark) :=
  ⟨mark, tracks.advance_eq later, Nat.le_refl _⟩

theorem Placed.beginText (tracks : TracksTo source scanner.offset scanner.tracker) :
    Placed source scanner.beginText := by
  refine ⟨tracks, Nat.le_refl _, ?_⟩
  intro taken modeEq
  cases modeEq
  rfl

theorem Placed.fail (placed : Placed source scanner) (error : MarkupError) :
    Placed source (scanner.fail error) := by
  refine ⟨placed.tracks, placed.start_le, ?_⟩
  intro taken modeEq
  cases modeEq

theorem Placed.ofSource (source : List Char) (extended : Bool) :
    Placed source (ofSource extended source) := by
  refine ⟨⟨0, ?_, Nat.le_refl _⟩, Nat.le_refl _, ?_⟩
  · cases source <;> rfl
  · intro taken modeEq
    cases modeEq
    rfl

theorem Placed.endPiece (placed : Placed source scanner) (piece : Piece) (text : List Char) :
    Placed source (scanner.endPiece piece text) := by
  have startLe := placed.start_le
  have further := placed.tracks.weaken startLe
  have emitted : TracksTo source scanner.offset (scanner.tracker.advance scanner.start) :=
    (placed.tracks.advance (Nat.le_refl _)).weaken startLe
  cases piece with
  | element quote =>
      simp only [Scanner.endPiece, endElement]
      split
      · exact placed.fail _
      · split
        · exact .beginText (emitted.advance (Nat.le_refl _))
        · exact .beginText emitted
  | closing =>
      simp only [Scanner.endPiece, endClosing]
      split
      · exact placed.fail _
      · split
        · exact .beginText emitted
        · exact placed.fail _
  | instruction =>
      simp only [Scanner.endPiece, endInstruction]
      split
      · split
        · exact .beginText further
        · exact .beginText further
      · exact placed.fail _
  | comment =>
      simp only [Scanner.endPiece, endComment]
      split
      · exact .beginText further
      · exact placed.fail _
  | cdata =>
      simp only [Scanner.endPiece, endCdata]
      split
      · exact .beginText emitted
      · exact placed.fail _
  | doctype =>
      simp only [Scanner.endPiece, endDoctype]
      split
      · split
        · exact placed.fail _
        · exact .beginText further
      · exact placed.fail _

theorem Placed.goOn (placed : Placed source scanner) (mode : Mode)
    (noText : ∀ taken, mode ≠ .text taken) {offset : Nat} (later : scanner.offset ≤ offset) :
    Placed source { scanner with mode, offset } := by
  refine ⟨placed.tracks, ?_, ?_⟩
  · exact Nat.le_trans placed.start_le later
  · intro taken modeEq
    exact absurd modeEq (noText taken)

theorem Placed.stepInside (placed : Placed source scanner) (piece : Piece) (taken : List Char)
    (c : Char) : Placed source (scanner.stepInside piece taken c) := by
  unfold Scanner.stepInside
  split
  · exact placed.endPiece _ _
  · exact placed.goOn _ (fun _ => Mode.noConfusion) (Nat.le_refl _)

theorem Placed.step_sign (placed : Placed source scanner) {taken : List Char}
    (modeEq : scanner.mode = .text taken) : Placed source (scanner.step '<') := by
  have startLe := placed.start_le
  have later : scanner.offset ≤ scanner.offset + '<'.utf8Size := Nat.le_add_right _ _
  by_cases empty : taken = []
  · rw [empty] at modeEq
    rw [step_sign_nil modeEq]
    exact ⟨placed.tracks.weaken startLe, later, fun _ => Mode.noConfusion⟩
  · cases decoded : decode scanner.extended taken.reverse with
    | ok content =>
        rw [step_sign_ok modeEq empty decoded]
        have tracks := placed.tracks.advance (Nat.le_refl scanner.start)
        exact ⟨tracks.weaken startLe, later, fun _ => Mode.noConfusion⟩
    | error error =>
        rw [step_sign_error modeEq empty decoded]
        exact ⟨placed.tracks, Nat.le_trans startLe later, fun _ => Mode.noConfusion⟩

theorem Placed.step_text (placed : Placed source scanner) {taken : List Char}
    (modeEq : scanner.mode = .text taken) {c : Char} (noSign : c ≠ '<') :
    Placed source (scanner.step c) := by
  have startLe := placed.start_le
  have offsetEq := placed.text taken modeEq
  rw [Scanner.step_text modeEq noSign]
  refine ⟨placed.tracks, Nat.le_trans startLe (Nat.le_add_right _ _), ?_⟩
  intro taken' modeEq'
  cases modeEq'
  simp only [Text.utf8Length_cons]
  omega

theorem Placed.step (placed : Placed source scanner) (c : Char) : Placed source (scanner.step c) := by
  have later : scanner.offset ≤ scanner.offset + c.utf8Size := Nat.le_add_right _ _
  cases modeEq : scanner.mode with
  | failed error =>
      rw [step_of_failed ⟨error, modeEq⟩]
      exact placed
  | text taken =>
      by_cases sign : c = '<'
      · rw [sign]
        exact placed.step_sign modeEq
      · exact placed.step_text modeEq sign
  | tag =>
      have next := placed.goOn .tag (fun _ => Mode.noConfusion) later
      simp only [Scanner.step, modeEq]
      split
      · exact placed.goOn _ (fun _ => Mode.noConfusion) later
      · split
        · exact placed.goOn _ (fun _ => Mode.noConfusion) later
        · split
          · exact placed.goOn _ (fun _ => Mode.noConfusion) later
          · exact next.stepInside _ _ _
  | bang =>
      simp only [Scanner.step, modeEq]
      refine placed.goOn _ ?_ later
      intro taken
      unfold bangMode
      repeat' split
      all_goals exact Mode.noConfusion
  | inside piece taken =>
      have next := placed.goOn (.inside piece taken) (fun _ => Mode.noConfusion) later
      simp only [Scanner.step, modeEq]
      exact next.stepInside _ _ _

theorem Placed.foldl_step (placed : Placed source scanner) (chars : List Char) :
    Placed source (chars.foldl Scanner.step scanner) := by
  induction chars generalizing scanner with
  | nil => exact placed
  | cons c rest ih => exact ih (placed.step c)

theorem offset_endPiece (scanner : Scanner) (piece : Piece) (text : List Char) :
    (scanner.endPiece piece text).offset = scanner.offset := by
  cases piece with
  | element quote =>
      simp only [endPiece, endElement]
      split
      · rfl
      · split <;> rfl
  | closing =>
      simp only [endPiece, endClosing]
      split
      · rfl
      · split <;> rfl
  | instruction =>
      simp only [endPiece, endInstruction]
      split
      · split <;> rfl
      · rfl
  | comment =>
      simp only [endPiece, endComment]
      split <;> rfl
  | cdata =>
      simp only [endPiece, endCdata]
      split <;> rfl
  | doctype =>
      simp only [endPiece, endDoctype]
      split
      · split <;> rfl
      · rfl

private theorem offset_stepInside (scanner : Scanner) (piece : Piece) (taken : List Char) (c : Char) :
    (scanner.stepInside piece taken c).offset = scanner.offset := by
  unfold stepInside
  split
  · exact offset_endPiece _ _ _
  · rfl

theorem offset_step (alive : ¬ scanner.Failed) (c : Char) :
    (scanner.step c).offset = scanner.offset + c.utf8Size := by
  cases modeEq : scanner.mode with
  | failed error => exact absurd ⟨error, modeEq⟩ alive
  | text taken =>
      by_cases sign : c = '<'
      · rw [sign]
        by_cases empty : taken = []
        · rw [empty] at modeEq
          rw [step_sign_nil modeEq]
        · cases decoded : decode scanner.extended taken.reverse with
          | ok content => rw [step_sign_ok modeEq empty decoded]
          | error error => rw [step_sign_error modeEq empty decoded]
      · rw [step_text modeEq sign]
  | tag =>
      simp only [step, modeEq]
      split
      · rfl
      · split
        · rfl
        · split
          · rfl
          · exact offset_stepInside _ _ _ _
  | bang => simp only [step, modeEq]
  | inside piece taken =>
      simp only [step, modeEq]
      exact offset_stepInside _ _ _ _

theorem offset_foldl_step {chars : List Char} (alive : ¬ (chars.foldl step scanner).Failed) :
    (chars.foldl step scanner).offset = scanner.offset + utf8Length chars := by
  induction chars generalizing scanner with
  | nil => rfl
  | cons c rest ih =>
      have aliveHere : ¬ scanner.Failed := by
        intro failed
        rw [foldl_step_of_failed failed] at alive
        exact alive failed
      rw [List.foldl_cons, ih alive, offset_step aliveHere, Text.utf8Length_cons, Nat.add_assoc]

theorem start_of_run {extended : Bool} {lead run : List Char}
    (modeEq : ((lead ++ run).foldl step (ofSource extended source)).mode = .text run.reverse) :
    ((lead ++ run).foldl step (ofSource extended source)).start = utf8Length lead ∧
      ((lead ++ run).foldl step (ofSource extended source)).offset = utf8Length (lead ++ run) := by
  have alive : ¬ ((lead ++ run).foldl step (ofSource extended source)).Failed := by
    rintro ⟨error, failed⟩
    rw [modeEq] at failed
    cases failed
  have placed := (Placed.ofSource source extended).foldl_step (lead ++ run)
  have offsetEq := offset_foldl_step alive
  have textEq := placed.text _ modeEq
  rw [Text.utf8Length_reverse] at textEq
  rw [Text.utf8Length_append] at offsetEq ⊢
  have zero : (ofSource extended source).offset = 0 := rfl
  omega

/-! ### The first tag of an element -/

def EmitsAt (position : Position) (scanner scanner' : Scanner) : Prop :=
  ∃ token later, scanner'.emitted = later ++ token :: scanner.emitted ∧ token.position = position

theorem EmitsAt.foldl_step {position : Position} {scanner' : Scanner}
    (emits : EmitsAt position scanner scanner') (chars : List Char) :
    EmitsAt position scanner (chars.foldl step scanner') := by
  obtain ⟨token, later, emittedEq, positionEq⟩ := emits
  obtain ⟨more, moreEq⟩ := (Grows.foldl_step scanner' chars).emitted
  refine ⟨token, more ++ later, ?_, positionEq⟩
  rw [← moreEq, emittedEq, List.append_assoc]

private theorem emitsAt_endElement (scanner : Scanner) (text : List Char) :
    ((scanner.endElement text).Failed ∧ (scanner.endElement text).emitted = scanner.emitted) ∨
      EmitsAt (scanner.tracker.advance scanner.start).position scanner (scanner.endElement text) := by
  simp only [endElement]
  split
  · exact .inl ⟨⟨_, rfl⟩, rfl⟩
  · right
    split
    · exact ⟨_, [_], rfl, rfl⟩
    · exact ⟨_, [], rfl, rfl⟩

/-- Inside a start tag, the next token is that of the tag, at the place where it begins. -/
theorem emitsAt_of_element {chars : List Char} {quote : Option Char} {taken : List Char}
    (modeEq : scanner.mode = .inside (.element quote) taken) :
    (chars.foldl step scanner).emitted = scanner.emitted ∨
      EmitsAt (scanner.tracker.advance scanner.start).position scanner
        (chars.foldl step scanner) := by
  induction chars generalizing scanner quote taken with
  | nil => exact .inl rfl
  | cons c rest ih =>
      rw [List.foldl_cons]
      by_cases ends : (c = '>' && (Piece.element quote).endsAfter taken) = true
      · have ended : scanner.step c =
            ({ scanner with offset := scanner.offset + c.utf8Size }).endElement taken.reverse := by
          simp only [step, modeEq, stepInside, if_pos ends, endPiece]
        rw [ended]
        rcases emitsAt_endElement { scanner with offset := scanner.offset + c.utf8Size }
          taken.reverse with ⟨failed, same⟩ | emits
        · rw [foldl_step_of_failed failed]
          exact .inl same
        · have emits : EmitsAt _ scanner _ := emits
          exact .inr (emits.foldl_step rest)
      · have goesOn : scanner.step c =
            { scanner with offset := scanner.offset + c.utf8Size,
                           mode := .inside ((Piece.element quote).after c) (c :: taken) } := by
          simp only [step, modeEq, stepInside, if_neg ends]
        rw [goesOn]
        cases quote with
        | none => exact @ih { scanner with offset := _, mode := _ } _ _ rfl
        | some quote => exact @ih { scanner with offset := _, mode := _ } _ _ rfl

end Scanner

theorem withoutMark_eq_self {chars : List Char} (noMark : chars.head? ≠ some '\uFEFF') :
    withoutMark chars = chars := by
  cases chars with
  | nil => rfl
  | cons c rest => exact if_neg fun same => noMark (congrArg some same)

end Trellis.Markup
