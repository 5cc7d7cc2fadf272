import Trellis.Proofs.Markup.Nesting

/-!
The scanner in the middle of a document.

What the scanner makes of further characters depends on its mode and on the elements it holds open.
Where it stands in the document decides about the positions of tokens alone, and elements further out
decide about nothing as long as they are not closed.
-/

namespace Trellis.Markup

open Text (utf8Length)

namespace Scanner

def shown (scanner : Scanner) : List TokenKind :=
  scanner.emitted.reverse.map (·.kind)

theorem shown_emit (scanner : Scanner) (kind : TokenKind) (mark : Nat) :
    (scanner.emit kind mark).shown = scanner.shown ++ [kind] := by
  simp [shown, emit]

def Failed (scanner : Scanner) : Prop :=
  ∃ error, scanner.mode = .failed error

theorem step_of_failed {scanner : Scanner} (failed : scanner.Failed) (c : Char) :
    scanner.step c = scanner := by
  obtain ⟨error, modeEq⟩ := failed
  simp only [step, modeEq]

theorem foldl_step_of_failed {scanner : Scanner} (failed : scanner.Failed) (chars : List Char) :
    chars.foldl step scanner = scanner := by
  induction chars with
  | nil => rfl
  | cons c rest ih => rw [List.foldl_cons, step_of_failed failed, ih]

theorem finishedAt_tokens (scanner : Scanner) (early : Nat) :
    (scanner.finishedAt early).tokens = scanner.emitted.reverse := by
  unfold finishedAt
  split <;> rfl

/-! ### The sign of a tag -/

section Sign

variable {scanner : Scanner} {taken : List Char}

theorem step_sign_nil (modeEq : scanner.mode = .text []) :
    scanner.step '<' =
      { scanner with mode := .tag, start := scanner.offset
                     offset := scanner.offset + '<'.utf8Size } := by
  simp only [step, modeEq, endText, List.isEmpty_nil, if_true]

theorem step_sign_ok (modeEq : scanner.mode = .text taken) (filled : taken ≠ []) {content : String}
    (decoded : decode scanner.extended taken.reverse = .ok content) :
    scanner.step '<' =
      { scanner.emit (.text content) scanner.start with
          mode := .tag, start := scanner.offset, offset := scanner.offset + '<'.utf8Size } := by
  have notEmpty : taken.isEmpty = false := List.isEmpty_eq_false_iff.2 filled
  simp only [step, modeEq, endText, notEmpty, decoded, emit, if_true, Bool.false_eq_true, if_false]

theorem step_sign_error (modeEq : scanner.mode = .text taken) (filled : taken ≠ [])
    {error : ReferenceError} (refused : decode scanner.extended taken.reverse = .error error) :
    scanner.step '<' =
      { scanner with mode := .failed (.reference error)
                     offset := scanner.offset + '<'.utf8Size } := by
  have notEmpty : taken.isEmpty = false := List.isEmpty_eq_false_iff.2 filled
  simp only [step, modeEq, endText, notEmpty, refused, fail, if_true, Bool.false_eq_true, if_false]

theorem step_text (modeEq : scanner.mode = .text taken) {c : Char} (noSign : c ≠ '<') :
    scanner.step c =
      { scanner with mode := .text (c :: taken), offset := scanner.offset + c.utf8Size } := by
  simp only [step, modeEq, if_neg noSign]

theorem foldl_step_text {chars : List Char} (modeEq : scanner.mode = .text taken)
    (noSign : ∀ c ∈ chars, c ≠ '<') :
    chars.foldl step scanner =
      { scanner with mode := .text (chars.reverse ++ taken)
                     offset := scanner.offset + utf8Length chars } := by
  induction chars generalizing scanner taken with
  | nil =>
      rw [List.foldl_nil, List.reverse_nil, List.nil_append, ← modeEq]
      rfl
  | cons c rest ih =>
      rw [List.foldl_cons, step_text modeEq (noSign c List.mem_cons_self),
        ih rfl fun d member => noSign d (List.mem_cons_of_mem c member)]
      simp only [List.reverse_cons, List.append_assoc, List.singleton_append, Text.utf8Length_cons,
        Nat.add_assoc]

end Sign

/-! ### Standing inside further elements -/

/-- The second scanner stands as the first does, inside further elements, and it has shown the same
since the two had shown what is given. -/
structure Framed (outer : List String) (before before' : List TokenKind)
    (scanner scanner' : Scanner) : Prop where
  extended_eq : scanner'.extended = scanner.extended
  mode_eq : scanner'.mode = scanner.mode
  opened_eq : scanner'.opened = scanner.opened ++ outer
  shown_eq : ∃ kinds, scanner.shown = before ++ kinds ∧ scanner'.shown = before' ++ kinds

namespace Framed

variable {outer : List String} {before before' : List TokenKind} {scanner scanner' : Scanner}

theorem turn (framed : Framed outer before before' scanner scanner') (mode : Mode)
    (offset offset' start start' : Nat) :
    Framed outer before before' { scanner with mode, offset, start }
      { scanner' with mode, offset := offset', start := start' } :=
  ⟨framed.extended_eq, rfl, framed.opened_eq, framed.shown_eq⟩

theorem emit (framed : Framed outer before before' scanner scanner') (kind : TokenKind)
    (mark mark' : Nat) :
    Framed outer before before' (scanner.emit kind mark) (scanner'.emit kind mark') := by
  obtain ⟨kinds, shownEq, shownEq'⟩ := framed.shown_eq
  refine ⟨framed.extended_eq, framed.mode_eq, framed.opened_eq, kinds ++ [kind], ?_, ?_⟩
  · rw [shown_emit, shownEq, List.append_assoc]
  · rw [shown_emit, shownEq', List.append_assoc]

theorem fail (framed : Framed outer before before' scanner scanner') (error : MarkupError) :
    Framed outer before before' (scanner.fail error) (scanner'.fail error) :=
  framed.turn _ _ _ _ _

theorem beginText (framed : Framed outer before before' scanner scanner') :
    Framed outer before before' scanner.beginText scanner'.beginText :=
  framed.turn _ _ _ _ _

theorem endText (framed : Framed outer before before' scanner scanner') (taken : List Char) :
    Framed outer before before' (scanner.endText taken) (scanner'.endText taken) := by
  unfold Scanner.endText
  rw [framed.extended_eq]
  split
  · exact framed
  · split
    · exact framed.emit _ _ _
    · exact framed.fail _

/-- Closing an element is the one thing for which it matters what is open. -/
theorem endClosing (framed : Framed outer before before' scanner scanner') {text : List Char}
    (inside : outer = [] ∨ ¬ (scanner.endClosing text).Failed) :
    Framed outer before before' (scanner.endClosing text) (scanner'.endClosing text) := by
  unfold Scanner.endClosing at inside ⊢
  cases openedEq : scanner.opened with
  | nil =>
      have noOuter : outer = [] := by
        refine inside.resolve_right (not_not_intro ?_)
        rw [openedEq]
        exact ⟨_, rfl⟩
      have openedEq' : scanner'.opened = [] := by
        rw [framed.opened_eq, openedEq, noOuter]
        rfl
      rw [openedEq']
      exact framed.fail _
  | cons expected opened =>
      have openedEq' : scanner'.opened = expected :: (opened ++ outer) := by
        rw [framed.opened_eq, openedEq]
        rfl
      rw [openedEq']
      simp only
      split
      · have popped : Framed outer before before' { scanner with opened }
            { scanner' with opened := opened ++ outer } :=
          ⟨framed.extended_eq, framed.mode_eq, rfl, framed.shown_eq⟩
        exact (popped.emit _ _ _).beginText
      · exact framed.fail _

theorem endElement (framed : Framed outer before before' scanner scanner') (text : List Char) :
    Framed outer before before' (scanner.endElement text) (scanner'.endElement text) := by
  unfold Scanner.endElement
  rw [framed.extended_eq]
  generalize nameEq : String.ofList
    ((if text.getLast? = some '/' then text.dropLast else text).takeWhile (!isTagBlank ·)) = name
  simp only [nameEq]
  split
  · exact framed.fail _
  · rename_i attributes _
    have opened := framed.emit (.opening name attributes) scanner.start scanner'.start
    split
    · exact (opened.emit _ _ _).beginText
    · refine beginText ⟨opened.extended_eq, opened.mode_eq, ?_, opened.shown_eq⟩
      exact congrArg (name :: ·) framed.opened_eq

theorem endPiece (framed : Framed outer before before' scanner scanner') {piece : Piece}
    {text : List Char} (inside : outer = [] ∨ ¬ (scanner.endPiece piece text).Failed) :
    Framed outer before before' (scanner.endPiece piece text) (scanner'.endPiece piece text) := by
  cases piece with
  | element quote => exact framed.endElement text
  | closing => exact framed.endClosing inside
  | instruction =>
      simp only [Scanner.endPiece, Scanner.endInstruction]
      split
      · split
        · exact beginText ⟨framed.extended_eq, framed.mode_eq, framed.opened_eq, framed.shown_eq⟩
        · exact framed.beginText
      · exact framed.fail _
  | comment =>
      simp only [Scanner.endPiece, Scanner.endComment]
      split
      · exact framed.beginText
      · exact framed.fail _
  | cdata =>
      simp only [Scanner.endPiece, Scanner.endCdata]
      split
      · exact (framed.emit _ _ _).beginText
      · exact framed.fail _
  | doctype =>
      simp only [Scanner.endPiece, Scanner.endDoctype]
      split
      · split
        · exact framed.fail _
        · exact framed.beginText
      · exact framed.fail _

theorem stepInside (framed : Framed outer before before' scanner scanner') {piece : Piece}
    {taken : List Char} {c : Char}
    (inside : outer = [] ∨ ¬ (scanner.stepInside piece taken c).Failed) :
    Framed outer before before' (scanner.stepInside piece taken c)
      (scanner'.stepInside piece taken c) := by
  unfold Scanner.stepInside at inside ⊢
  split
  · rename_i ends
    rw [if_pos ends] at inside
    exact framed.endPiece inside
  · exact framed.turn _ _ _ _ _

/-- One step, unless the first scanner fails at it for want of the elements further out. -/
theorem step (framed : Framed outer before before' scanner scanner') {c : Char}
    (inside : outer = [] ∨ ¬ (scanner.step c).Failed) :
    Framed outer before before' (scanner.step c) (scanner'.step c) := by
  have next : Framed outer before before' { scanner with offset := scanner.offset + c.utf8Size }
      { scanner' with offset := scanner'.offset + c.utf8Size } :=
    ⟨framed.extended_eq, framed.mode_eq, framed.opened_eq, framed.shown_eq⟩
  unfold Scanner.step at inside ⊢
  rw [framed.mode_eq]
  cases modeEq : scanner.mode with
  | failed error => exact framed
  | text taken =>
      simp only
      by_cases sign : c = '<'
      · simp only [if_pos sign]
        have ended := (framed.turn (.text taken) (scanner.offset + c.utf8Size)
          (scanner'.offset + c.utf8Size) scanner.start scanner'.start).endText taken
        rw [ended.mode_eq]
        split
        · exact ended
        · exact ended.turn _ _ _ _ _
      · simp only [if_neg sign]
        exact next.turn _ _ _ _ _
  | tag =>
      rw [modeEq] at inside
      simp only at inside ⊢
      split
      · exact next.turn _ _ _ _ _
      · split
        · exact next.turn _ _ _ _ _
        · split
          · exact next.turn _ _ _ _ _
          · rename_i noSlash noQuestion noBang
            simp only [if_neg noSlash, if_neg noQuestion, if_neg noBang] at inside
            exact next.stepInside inside
  | bang => exact next.turn _ _ _ _ _
  | inside piece taken =>
      rw [modeEq] at inside
      exact next.stepInside inside

theorem foldl_step {chars : List Char} (framed : Framed outer before before' scanner scanner')
    (inside : outer = [] ∨ ¬ (chars.foldl Scanner.step scanner).Failed) :
    Framed outer before before' (chars.foldl Scanner.step scanner)
      (chars.foldl Scanner.step scanner') := by
  induction chars generalizing scanner scanner' with
  | nil => exact framed
  | cons c rest ih =>
      refine ih (framed.step ?_) inside
      refine inside.imp_right fun notFailed failed => notFailed ?_
      rw [List.foldl_cons, foldl_step_of_failed failed]
      exact failed

theorem finish (framed : Framed [] before before' scanner scanner') :
    ∃ kinds, scanner.finish.tokens.map (·.kind) = before ++ kinds ∧
      scanner'.finish.tokens.map (·.kind) = before' ++ kinds := by
  unfold Scanner.finish
  rw [framed.mode_eq]
  split
  · exact framed.shown_eq
  · rename_i taken _
    rw [finishedAt_tokens, finishedAt_tokens]
    exact (framed.endText taken).shown_eq
  · rw [finishedAt_tokens, finishedAt_tokens]
    exact framed.shown_eq
  · exact framed.shown_eq
  · rename_i piece taken _
    split
    · exact framed.shown_eq
    · rw [finishedAt_tokens, finishedAt_tokens]
      exact (framed.endPiece (.inl rfl)).shown_eq

end Framed

/-! ### Going on -/

structure Grows (before after : Scanner) : Prop where
  extended_eq : after.extended = before.extended
  emitted : before.emitted <:+ after.emitted

namespace Grows

theorem refl (scanner : Scanner) : Grows scanner scanner :=
  ⟨rfl, List.suffix_refl _⟩

theorem trans {first second third : Scanner} (begins : Grows first second)
    (goesOn : Grows second third) : Grows first third :=
  ⟨goesOn.extended_eq.trans begins.extended_eq, begins.emitted.trans goesOn.emitted⟩

theorem emit (scanner : Scanner) (kind : TokenKind) (mark : Nat) :
    Grows scanner (scanner.emit kind mark) :=
  ⟨rfl, List.suffix_cons _ _⟩

theorem endText (scanner : Scanner) (taken : List Char) : Grows scanner (scanner.endText taken) := by
  unfold Scanner.endText
  split
  · exact refl _
  · split
    · exact emit _ _ _
    · exact ⟨rfl, List.suffix_refl _⟩

theorem endPiece (scanner : Scanner) (piece : Piece) (text : List Char) :
    Grows scanner (scanner.endPiece piece text) := by
  have same : scanner.emitted <:+ scanner.emitted := List.suffix_refl _
  cases piece with
  | element quote =>
      simp only [Scanner.endPiece, endElement]
      split
      · exact ⟨rfl, same⟩
      · split
        · exact (emit scanner _ _).trans ⟨rfl, List.suffix_cons _ _⟩
        · exact ⟨rfl, List.suffix_cons _ _⟩
  | closing =>
      simp only [Scanner.endPiece, endClosing]
      split
      · exact ⟨rfl, same⟩
      · split
        · exact ⟨rfl, List.suffix_cons _ _⟩
        · exact ⟨rfl, same⟩
  | instruction =>
      simp only [Scanner.endPiece, endInstruction]
      split
      · split <;> exact ⟨rfl, same⟩
      · exact ⟨rfl, same⟩
  | comment =>
      simp only [Scanner.endPiece, endComment]
      split <;> exact ⟨rfl, same⟩
  | cdata =>
      simp only [Scanner.endPiece, endCdata]
      split
      · exact ⟨rfl, List.suffix_cons _ _⟩
      · exact ⟨rfl, same⟩
  | doctype =>
      simp only [Scanner.endPiece, endDoctype]
      split
      · split <;> exact ⟨rfl, same⟩
      · exact ⟨rfl, same⟩

theorem stepInside (scanner : Scanner) (piece : Piece) (taken : List Char) (c : Char) :
    Grows scanner (scanner.stepInside piece taken c) := by
  unfold Scanner.stepInside
  split
  · exact endPiece _ _ _
  · exact ⟨rfl, List.suffix_refl _⟩

theorem step (scanner : Scanner) (c : Char) : Grows scanner (scanner.step c) := by
  have next : Grows scanner { scanner with offset := scanner.offset + c.utf8Size } :=
    ⟨rfl, List.suffix_refl _⟩
  unfold Scanner.step
  simp only
  split
  · exact refl _
  · rename_i taken _
    split
    · have ended := next.trans (endText _ taken)
      split
      · exact ended
      · exact ⟨ended.extended_eq, ended.emitted⟩
    · exact ⟨rfl, List.suffix_refl _⟩
  · split
    · exact ⟨rfl, List.suffix_refl _⟩
    · split
      · exact ⟨rfl, List.suffix_refl _⟩
      · split
        · exact ⟨rfl, List.suffix_refl _⟩
        · exact next.trans (stepInside _ _ _ _)
  · exact ⟨rfl, List.suffix_refl _⟩
  · exact next.trans (stepInside _ _ _ _)

theorem foldl_step (scanner : Scanner) (chars : List Char) :
    Grows scanner (chars.foldl Scanner.step scanner) := by
  induction chars generalizing scanner with
  | nil => exact refl _
  | cons c rest ih => exact (step scanner c).trans (ih (scanner.step c))

end Grows

theorem emitted_finish (scanner : Scanner) :
    scanner.emitted.reverse <+: scanner.finish.tokens := by
  unfold finish
  split
  · exact List.prefix_refl _
  · rw [finishedAt_tokens, List.reverse_prefix]
    exact (Grows.endText _ _).emitted
  · simp only [finishedAt_tokens, List.prefix_refl]
  · exact List.prefix_refl _
  · split
    · exact List.prefix_refl _
    · rw [finishedAt_tokens, List.reverse_prefix]
      exact (Grows.endPiece _ _ _).emitted

/-! ### What a scanner stands for -/

/-- The scanner is in the mode, holds these elements open and has shown tokens of these kinds. -/
structure Stands (extended : Bool) (opened : List String) (kinds : List TokenKind) (mode : Mode)
    (scanner : Scanner) : Prop where
  extended_eq : scanner.extended = extended
  opened_eq : scanner.opened = opened
  shown_eq : scanner.shown = kinds
  mode_eq : scanner.mode = mode

variable {extended : Bool} {opened outer : List String} {kinds kinds' : List TokenKind}
variable {mode : Mode} {scanner scanner' : Scanner}

theorem Stands.turn (stands : scanner.Stands extended opened kinds mode) (next : Mode)
    (offset start : Nat) :
    Stands extended opened kinds next { scanner with mode := next, offset, start } :=
  ⟨stands.extended_eq, stands.opened_eq, stands.shown_eq, rfl⟩

theorem Stands.foldl_text {taken : List Char}
    (stands : scanner.Stands extended opened kinds (.text taken)) {chars : List Char}
    (noSign : ∀ c ∈ chars, c ≠ '<') :
    (chars.foldl Scanner.step scanner).Stands extended opened kinds
      (.text (chars.reverse ++ taken)) := by
  rw [foldl_step_text stands.mode_eq noSign]
  exact stands.turn _ _ _

theorem Stands.framed (stands : scanner.Stands extended opened kinds mode)
    (stands' : scanner'.Stands extended (opened ++ outer) kinds' mode) :
    Framed outer kinds kinds' scanner scanner' where
  extended_eq := stands'.extended_eq.trans stands.extended_eq.symm
  mode_eq := stands'.mode_eq.trans stands.mode_eq.symm
  opened_eq := by rw [stands'.opened_eq, stands.opened_eq]
  shown_eq := ⟨[], by rw [stands.shown_eq, List.append_nil], by rw [stands'.shown_eq, List.append_nil]⟩

theorem Framed.stands {before before' : List TokenKind}
    (framed : Framed outer before before' scanner scanner')
    (stands : scanner.Stands extended opened (before ++ kinds) mode) :
    scanner'.Stands extended (opened ++ outer) (before' ++ kinds) mode := by
  obtain ⟨later, shownEq, shownEq'⟩ := framed.shown_eq
  rw [stands.shown_eq, List.append_cancel_left_eq] at shownEq
  refine ⟨framed.extended_eq.trans stands.extended_eq, ?_, ?_, framed.mode_eq.trans stands.mode_eq⟩
  · rw [framed.opened_eq, stands.opened_eq]
  · rw [shownEq', shownEq]

theorem stands_ofSource (extended : Bool) (source : List Char) :
    (ofSource extended source).Stands extended [] [] (.text []) :=
  ⟨rfl, rfl, rfl, rfl⟩

/-- What the scanner stands for does not depend on the document in which it takes its characters. -/
theorem stands_foldl (extended : Bool) (source source' : List Char) (chars : List Char) :
    let alone := chars.foldl step (ofSource extended source)
    (chars.foldl step (ofSource extended source')).Stands extended alone.opened alone.shown
      alone.mode := by
  intro alone
  have within : (ofSource extended source').Stands extended ([] ++ []) [] (.text []) :=
    stands_ofSource extended source'
  have framed : Framed [] [] [] alone (chars.foldl step (ofSource extended source')) :=
    ((stands_ofSource extended source).framed within).foldl_step (.inl rfl)
  have here := framed.stands ⟨(Grows.foldl_step _ _).extended_eq, rfl, rfl, rfl⟩
  rwa [List.append_nil, List.nil_append] at here

end Scanner

/-! ### The byte order mark -/

theorem utf8Length_withoutMark (chars : List Char) :
    utf8Length (withoutMark chars) ≤ utf8Length chars := by
  cases chars with
  | nil => exact Nat.le_refl _
  | cons c rest =>
      rw [withoutMark]
      split
      · rw [Text.utf8Length_cons]
        exact Nat.le_add_left _ _
      · exact Nat.le_refl _

end Trellis.Markup
