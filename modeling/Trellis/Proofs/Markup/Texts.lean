import Trellis.Proofs.Markup.Framing

/-!
Runs of text, taken apart.

A run of text that is decoded can be divided wherever no reference is cut, and what is decoded is
divided with it.  The offsets in a text are told in errors alone.
-/

namespace Trellis.Markup

open Text (utf8Length)

/-! ### Decoding what is written in a row -/

private theorem charOfCode_eq_ok {start stop code : Nat} {c : Char}
    (found : charOfCode start stop code = .ok c) (start' stop' : Nat) :
    charOfCode start' stop' code = .ok c := by
  unfold charOfCode at found ⊢
  split at found
  · cases found
  · rename_i notZero
    rw [if_neg notZero]
    exact found

private theorem expand_eq_ok {extended : Bool} {start stop : Nat} {name text : List Char}
    (expanded : expand extended start stop name = .ok text) (start' stop' : Nat) :
    expand extended start' stop' name = .ok text := by
  unfold expand at expanded ⊢
  split at expanded
  · rename_i digits
    cases codeEq : readCode digits with
    | error error =>
        rw [codeEq] at expanded
        cases expanded
    | ok code =>
        rw [codeEq] at expanded
        cases charEq : charOfCode start stop code with
        | error error =>
            simp only [bind, Except.bind, charEq] at expanded
            cases expanded
        | ok c =>
            simp only [bind, Except.bind, charEq] at expanded
            simp only [bind, Except.bind, charOfCode_eq_ok charEq start' stop']
            exact expanded
  · split at expanded
    · exact expanded
    · cases expanded

theorem map_eq_ok {ε α β : Type} {f : α → β} {outcome : Except ε α} {value : β}
    (mapped : f <$> outcome = .ok value) : ∃ found, outcome = .ok found ∧ f found = value := by
  cases outcome with
  | error error => cases mapped
  | ok found => exact ⟨found, rfl, Except.ok.inj mapped⟩

private theorem append_map_append {ε : Type} (first second : List Char)
    (outcome : Except ε (List Char)) :
    (first ++ ·) <$> (second ++ ·) <$> outcome = (first ++ second ++ ·) <$> outcome := by
  cases outcome with
  | error error => rfl
  | ok found => exact congrArg Except.ok (List.append_assoc first second found).symm

theorem decodeFrom_semicolon (extended : Bool) (length offset : Nat) (reference : OpenReference)
    (rest : List Char) :
    decodeFrom extended length offset (some reference) (';' :: rest) =
      expand extended reference.start offset reference.taken.reverse >>= fun text =>
        (text ++ ·) <$> decodeFrom extended length (offset + 1) none rest := by
  rw [decodeFrom, if_neg (by decide), if_pos rfl]
  simp only [map_eq_pure_bind]

/-- Behind a text that is decoded, decoding goes on as from a beginning. -/
private theorem decodeFrom_append {extended : Bool} {length offset start : Nat}
    {taken? : Option (List Char)}
    {left text : List Char}
    (decoded : decodeFrom extended length offset (taken?.map (⟨start, ·⟩)) left = .ok text)
    (length' offset' start' : Nat) (right : List Char) :
    decodeFrom extended length' offset' (taken?.map (⟨start', ·⟩)) (left ++ right) =
      (text ++ ·) <$> decodeFrom extended length' (offset' + utf8Length left) none right := by
  induction left generalizing offset offset' start start' taken? text with
  | nil =>
      cases taken? with
      | none =>
          cases decoded
          exact (id_map _).symm
      | some taken => cases decoded
  | cons c rest ih =>
      rw [Text.utf8Length_cons, ← Nat.add_assoc, List.cons_append]
      cases taken? with
      | none =>
          simp only [Option.map_none, decodeFrom] at decoded ⊢
          by_cases begins : c = '&'
          · rw [if_pos begins] at decoded ⊢
            rw [begins]
            exact @ih _ _ (some []) _ decoded (offset' + 1) offset'
          · rw [if_neg begins] at decoded ⊢
            obtain ⟨found, restEq, rfl⟩ := map_eq_ok decoded
            have later := @ih _ start none _ restEq (offset' + c.utf8Size) start'
            rw [Option.map_none] at later
            rw [later]
            exact append_map_append [c] found _
      | some taken =>
          rw [Option.map_some] at decoded ⊢
          by_cases ends : c = ';'
          · rw [ends, decodeFrom_semicolon] at decoded ⊢
            cases expandEq : expand extended start offset taken.reverse with
            | error error =>
                rw [expandEq] at decoded
                cases decoded
            | ok named =>
                rw [expandEq] at decoded
                obtain ⟨found, restEq, rfl⟩ := map_eq_ok decoded
                have later := @ih _ start none _ restEq (offset' + 1) start'
                rw [Option.map_none] at later
                rw [expand_eq_ok expandEq, later]
                exact append_map_append named found _
          · simp only [decodeFrom, if_neg ends] at decoded ⊢
            by_cases begins : c = '&'
            · rw [if_pos begins] at decoded
              cases decoded
            · rw [if_neg begins] at decoded ⊢
              exact @ih _ _ (some (c :: taken)) _ decoded (offset' + c.utf8Size) start'

private theorem decodeFrom_eq_ok {extended : Bool} {length offset : Nat} {text found : List Char}
    (decoded : decodeFrom extended length offset none text = .ok found) (length' offset' : Nat) :
    decodeFrom extended length' offset' none text = .ok found := by
  have step := @decodeFrom_append extended length offset 0 none text found decoded length' offset' 0 []
  rw [Option.map_none, List.append_nil, decodeFrom] at step
  rw [step]
  exact congrArg Except.ok (List.append_nil found)

theorem decode_eq_ok_iff {extended : Bool} {text : List Char} {content : String} {length offset : Nat} :
    decode extended text = .ok content ↔
      decodeFrom extended length offset none text = .ok content.toList := by
  constructor
  · intro decoded
    unfold decode at decoded
    obtain ⟨found, textEq, rfl⟩ := map_eq_ok decoded
    rw [String.toList_ofList]
    exact decodeFrom_eq_ok textEq length offset
  · intro decoded
    rw [decode, decodeFrom_eq_ok decoded]
    exact congrArg Except.ok String.ofList_toList

variable {extended : Bool} {left right : List Char} {first : String}

private theorem decodeFrom_behind (decoded : decode extended left = .ok first) (length offset : Nat) :
    decodeFrom extended length offset none (left ++ right) =
      (first.toList ++ ·) <$> decodeFrom extended length (offset + utf8Length left) none right :=
  @decodeFrom_append extended length offset 0 none left first.toList
    (decode_eq_ok_iff.1 decoded) length offset 0 right

theorem decode_append {second : String} (decoded : decode extended left = .ok first)
    (decoded' : decode extended right = .ok second) :
    decode extended (left ++ right) = .ok (first ++ second) := by
  rw [@decode_eq_ok_iff extended _ _ 0 0, decodeFrom_behind decoded, decode_eq_ok_iff.1 decoded',
    String.toList_append]
  rfl

/-- What is decoded of two texts in a row is what is decoded of either. -/
theorem decode_of_append {whole : String} (decoded : decode extended left = .ok first)
    (decodedWhole : decode extended (left ++ right) = .ok whole) :
    ∃ second, decode extended right = .ok second ∧ whole = first ++ second := by
  have both := (@decode_eq_ok_iff extended _ _ 0 0).1 decodedWhole
  rw [decodeFrom_behind decoded] at both
  obtain ⟨found, rightEq, wholeEq⟩ := map_eq_ok both
  refine ⟨String.ofList found, ?_, ?_⟩
  · rw [decode_eq_ok_iff, String.toList_ofList]
    exact rightEq
  · rw [← String.toList_inj, String.toList_append, String.toList_ofList]
    exact wholeEq.symm

/-! ### Runs of text in a document -/

def runText (run : List Char) (content : String) : Option String :=
  if run.isEmpty then none else some content

namespace Scanner

def runTokens (scanner : Scanner) (text : Option String) : List Token :=
  text.toList.map fun content =>
    ⟨.text content, (scanner.tracker.advance scanner.start).position, scanner.encoding⟩

private theorem runTokens_kinds (scanner : Scanner) (text : Option String) :
    (scanner.runTokens text).map (·.kind) = text.toList.map .text := by
  cases text <;> rfl

section Runs

variable {extended : Bool} {scanner scanner' : Scanner} {run run' : List Char}
variable {content content' : String} {opened : List String} {kinds kinds' : List TokenKind}

private theorem emitted_endText_of_ok (decoded : decode scanner.extended run = .ok content) :
    (scanner.endText run.reverse).emitted.reverse =
      scanner.emitted.reverse ++ scanner.runTokens (runText run content) := by
  unfold endText runText
  rw [List.isEmpty_reverse, List.reverse_reverse]
  split
  · exact (List.append_nil _).symm
  · rw [decoded]
    exact List.reverse_cons

theorem step_sign_run (modeEq : scanner.mode = .text run.reverse)
    (decoded : decode scanner.extended run = .ok content) :
    (scanner.step '<').emitted.reverse =
        scanner.emitted.reverse ++ scanner.runTokens (runText run content) ∧
      (scanner.step '<').mode = .tag ∧ (scanner.step '<').start = scanner.offset ∧
      (scanner.step '<').opened = scanner.opened ∧
      (scanner.step '<').extended = scanner.extended := by
  have emitted := emitted_endText_of_ok decoded
  unfold endText at emitted
  rw [List.isEmpty_reverse, List.reverse_reverse] at emitted
  by_cases empty : run = []
  · rw [empty] at modeEq emitted
    rw [step_sign_nil modeEq, empty]
    exact ⟨emitted, rfl, rfl, rfl, rfl⟩
  · rw [if_neg (mt List.isEmpty_iff.1 empty), decoded] at emitted
    rw [step_sign_ok modeEq (mt List.reverse_eq_nil_iff.1 empty) (run.reverse_reverse.symm ▸ decoded)]
    exact ⟨emitted, rfl, rfl, rfl, rfl⟩

theorem Stands.step_sign (stands : scanner.Stands extended opened kinds (.text run.reverse))
    (decoded : decode extended run = .ok content) :
    (scanner.step '<').Stands extended opened
      (kinds ++ (runText run content).toList.map .text) .tag := by
  rw [← stands.extended_eq] at decoded
  obtain ⟨emitted, modeEq, _, openedEq, extendedEq⟩ := step_sign_run stands.mode_eq decoded
  refine ⟨extendedEq.trans stands.extended_eq, openedEq.trans stands.opened_eq, ?_, modeEq⟩
  rw [shown, emitted, List.map_append, runTokens_kinds, ← stands.shown_eq, shown]

theorem finish_tokens_eq (scanner : Scanner) (chars : List Char) :
    ∃ more, (chars.foldl step scanner).finish.tokens = scanner.emitted.reverse ++ more := by
  have grown := List.reverse_prefix.2 (Grows.foldl_step scanner chars).emitted
  obtain ⟨more, moreEq⟩ := grown.trans (emitted_finish _)
  exact ⟨more, moreEq.symm⟩

/-- Behind runs of text, documents go on with tokens of the same kinds. -/
theorem finish_runs {rest : List Char} (ends : rest = [] ∨ ∃ more, rest = '<' :: more)
    (stands : scanner.Stands extended opened kinds (.text run.reverse))
    (stands' : scanner'.Stands extended opened kinds' (.text run'.reverse))
    (decoded : decode extended run = .ok content)
    (decoded' : decode extended run' = .ok content') :
    ∃ more more',
      (rest.foldl step scanner).finish.tokens =
        scanner.emitted.reverse ++ scanner.runTokens (runText run content) ++ more ∧
      (rest.foldl step scanner').finish.tokens =
        scanner'.emitted.reverse ++ scanner'.runTokens (runText run' content') ++ more' ∧
      more.map (·.kind) = more'.map (·.kind) := by
  have here := stands.extended_eq ▸ decoded
  have here' := stands'.extended_eq ▸ decoded'
  rcases ends with rfl | ⟨chars, rfl⟩
  · refine ⟨[], [], ?_, ?_, rfl⟩
    · rw [List.append_nil, List.foldl_nil, finish, stands.mode_eq, ← emitted_endText_of_ok here]
      exact finishedAt_tokens _ _
    · rw [List.append_nil, List.foldl_nil, finish, stands'.mode_eq, ← emitted_endText_of_ok here']
      exact finishedAt_tokens _ _
  · obtain ⟨more, tokensEq⟩ := finish_tokens_eq (scanner.step '<') chars
    obtain ⟨more', tokensEq'⟩ := finish_tokens_eq (scanner'.step '<') chars
    have signed := stands.step_sign decoded
    have signed' := stands'.step_sign decoded'
    rw [← List.append_nil opened] at signed'
    obtain ⟨later, kindsEq, kindsEq'⟩ := ((signed.framed signed').foldl_step (.inl rfl)).finish
    rw [tokensEq, List.map_append, ← signed.shown_eq, shown, List.append_cancel_left_eq] at kindsEq
    rw [tokensEq', List.map_append, ← signed'.shown_eq, shown, List.append_cancel_left_eq] at kindsEq'
    refine ⟨more, more', ?_, ?_, kindsEq.trans kindsEq'.symm⟩
    · rw [List.foldl_cons, tokensEq, (step_sign_run stands.mode_eq here).1]
    · rw [List.foldl_cons, tokensEq', (step_sign_run stands'.mode_eq here').1]

/-- A document has no tokens behind a run of text that cannot be decoded. -/
theorem finish_refused {rest : List Char} (ends : rest = [] ∨ ∃ more, rest = '<' :: more)
    (modeEq : scanner.mode = .text run.reverse) {error : ReferenceError}
    (refused : decode scanner.extended run = .error error) :
    (rest.foldl step scanner).finish.tokens = scanner.emitted.reverse := by
  have filled : run ≠ [] := by
    rintro rfl
    cases refused
  rcases ends with rfl | ⟨chars, rfl⟩
  · rw [List.foldl_nil, finish, modeEq]
    simp only
    rw [finishedAt_tokens, endText, List.isEmpty_reverse, List.reverse_reverse,
      if_neg (mt List.isEmpty_iff.1 filled), refused]
    rfl
  · rw [List.foldl_cons, step_sign_error modeEq (mt List.reverse_eq_nil_iff.1 filled)
      (run.reverse_reverse.symm ▸ refused), foldl_step_of_failed ⟨_, rfl⟩]
    rfl

end Runs

end Scanner

end Trellis.Markup
