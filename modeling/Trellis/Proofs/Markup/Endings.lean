import Mathlib.Data.List.Induction
import Trellis.Proofs.Markup.Continuations
import Trellis.Proofs.Markup.Splices

/-!
The end of a document.

A document may end in a run of text or inside an end tag, and its end is then the end of these.  Once
the first element of a document has its end tag, nothing that comes later is looked at.
-/

namespace Trellis.Markup

open Text (utf8Length)

namespace Scanner

variable {source : List Char} {scanner : Scanner}

/-! ### What the end of a document adds -/

/-- In a run of text, the document has the tokens by its end that it would have by the next tag. -/
private theorem finish_of_text {taken : List Char} (modeEq : scanner.mode = .text taken) :
    scanner.finish.tokens = (scanner.step '<').emitted.reverse := by
  rw [finish, modeEq]
  simp only
  rw [finishedAt_tokens]
  by_cases empty : taken = []
  · rw [empty] at modeEq ⊢
    rw [step_sign_nil modeEq]
    rfl
  · have filled : ¬ taken.isEmpty = true := mt List.isEmpty_iff.1 empty
    rw [endText, if_neg filled]
    cases decoded : decode scanner.extended taken.reverse with
    | ok content => rw [step_sign_ok modeEq empty decoded]
    | error error =>
        rw [step_sign_error modeEq empty decoded]
        rfl

private theorem finish_of_closing {taken : List Char} (modeEq : scanner.mode = .inside .closing taken) :
    scanner.finish.tokens = (scanner.step '>').emitted.reverse := by
  simp only [finish, modeEq, unfinished?, endPiece, step, stepInside, Piece.endsAfter, decide_true,
    Bool.true_and, if_true, finishedAt_tokens, endClosing]
  cases scanner.opened with
  | nil => rfl
  | cons expected opened =>
      simp only
      split <;> rfl

private theorem finish_elsewhere (noClosing : ∀ taken, scanner.mode ≠ .inside .closing taken) :
    ∃ texts, scanner.finish.tokens = scanner.emitted.reverse ++ texts ∧
      ∀ token ∈ texts, ∃ content, token.kind = .text content := by
  have nothing : ∃ texts, scanner.emitted.reverse = scanner.emitted.reverse ++ texts ∧
      ∀ token ∈ texts, ∃ content, token.kind = TokenKind.text content :=
    ⟨[], (List.append_nil _).symm, fun token member => absurd member List.not_mem_nil⟩
  unfold finish
  split
  · exact nothing
  · rename_i taken _
    rw [finishedAt_tokens, endText]
    split
    · exact nothing
    · split
      · rename_i content _
        refine ⟨[_], List.reverse_cons, ?_⟩
        intro token member
        rw [List.mem_singleton.1 member]
        exact ⟨content, rfl⟩
      · exact nothing
  · rw [finishedAt_tokens]
    exact nothing
  · exact nothing
  · rename_i piece taken modeEq
    cases piece with
    | closing => exact absurd modeEq (noClosing taken)
    | instruction =>
        simp only [unfinished?, finishedAt_tokens, endPiece, endInstruction]
        split
        · split <;> exact nothing
        · exact nothing
    | element quote => exact nothing
    | comment => exact nothing
    | cdata => exact nothing
    | doctype => exact nothing

private theorem mode_endPiece (scanner : Scanner) (piece : Piece) (text : List Char) :
    (scanner.endPiece piece text).mode = .text [] ∨ (scanner.endPiece piece text).Failed := by
  cases piece with
  | element quote =>
      simp only [endPiece, endElement]
      split
      · exact .inr ⟨_, rfl⟩
      · split <;> exact .inl rfl
  | closing =>
      simp only [endPiece, endClosing]
      split
      · exact .inr ⟨_, rfl⟩
      · split
        · exact .inl rfl
        · exact .inr ⟨_, rfl⟩
  | instruction =>
      simp only [endPiece, endInstruction]
      split
      · split <;> exact .inl rfl
      · exact .inr ⟨_, rfl⟩
  | comment =>
      simp only [endPiece, endComment]
      split
      · exact .inl rfl
      · exact .inr ⟨_, rfl⟩
  | cdata =>
      simp only [endPiece, endCdata]
      split
      · exact .inl rfl
      · exact .inr ⟨_, rfl⟩
  | doctype =>
      simp only [endPiece, endDoctype]
      split
      · split
        · exact .inr ⟨_, rfl⟩
        · exact .inl rfl
      · exact .inr ⟨_, rfl⟩

private theorem mode_stepInside (scanner : Scanner) (piece : Piece) (taken : List Char) (c : Char) :
    ((scanner.stepInside piece taken c).mode = .text [] ∨ (scanner.stepInside piece taken c).Failed) ∨
      (c = '>' → piece.endsAfter taken = false) ∧
        scanner.stepInside piece taken c =
          { scanner with mode := .inside (piece.after c) (c :: taken) } := by
  unfold stepInside
  split
  · exact .inl (mode_endPiece _ _ _)
  · rename_i goesOn
    refine .inr ⟨?_, rfl⟩
    intro sign
    rw [sign] at goesOn
    simpa using goesOn

private theorem text_of_step_tag {c : Char} (modeEq : (scanner.step c).mode = .tag) :
    c = '<' ∧ ∃ run, scanner.mode = .text run := by
  have noPiece (before : Scanner) (piece : Piece) (taken : List Char) :
      (before.stepInside piece taken c).mode ≠ .tag := by
    intro isTag
    rcases mode_stepInside before piece taken c with (isText | ⟨error, failed⟩) | ⟨_, same⟩
    · rw [isText] at isTag
      cases isTag
    · rw [failed] at isTag
      cases isTag
    · rw [same] at isTag
      cases isTag
  cases beforeEq : scanner.mode with
  | failed error =>
      rw [step_of_failed ⟨error, beforeEq⟩, beforeEq] at modeEq
      cases modeEq
  | text run =>
      by_cases sign : c = '<'
      · exact ⟨sign, run, rfl⟩
      · rw [step_text beforeEq sign] at modeEq
        cases modeEq
  | tag =>
      simp only [step, beforeEq] at modeEq
      split at modeEq
      · cases modeEq
      · split at modeEq
        · cases modeEq
        · split at modeEq
          · cases modeEq
          · exact absurd modeEq (noPiece _ _ _)
  | bang =>
      simp only [step, beforeEq, bangMode] at modeEq
      repeat' split at modeEq
      all_goals cases modeEq
  | inside piece taken =>
      simp only [step, beforeEq] at modeEq
      exact absurd modeEq (noPiece _ _ _)

private theorem mode_step_of_text {run : List Char} (textEq : scanner.mode = .text run) (c : Char) :
    (∃ run', (scanner.step c).mode = .text run') ∨ (scanner.step c).mode = .tag ∨
      (scanner.step c).Failed := by
  by_cases sign : c = '<'
  · rw [sign]
    by_cases empty : run = []
    · rw [empty] at textEq
      rw [step_sign_nil textEq]
      exact .inr (.inl rfl)
    · cases decoded : decode scanner.extended run.reverse with
      | ok content =>
          rw [step_sign_ok textEq empty decoded]
          exact .inr (.inl rfl)
      | error error =>
          rw [step_sign_error textEq empty decoded]
          exact .inr (.inr ⟨_, rfl⟩)
  · rw [step_text textEq sign]
    exact .inl ⟨_, rfl⟩

private theorem closing_of_stepInside {piece : Piece} {others taken : List Char} {c : Char}
    (modeEq : (scanner.stepInside piece others c).mode = .inside .closing taken) :
    (scanner.stepInside piece others c).emitted = scanner.emitted ∧ taken = c :: others ∧ c ≠ '>' ∧
      piece = .closing := by
  rcases mode_stepInside scanner piece others c with (isText | ⟨error, failed⟩) | ⟨goesOn, same⟩
  · rw [isText] at modeEq
    cases modeEq
  · rw [failed] at modeEq
    cases modeEq
  · rw [same] at modeEq ⊢
    simp only [Mode.inside.injEq] at modeEq
    have isClosing : piece = .closing := by
      cases piece with
      | element quote => cases quote <;> cases modeEq.1
      | _ => exact modeEq.1
    refine ⟨rfl, modeEq.2.symm, ?_, isClosing⟩
    intro sign
    have refuses := goesOn sign
    rw [isClosing] at refuses
    cases refuses

private theorem closing_of_step_closing {c : Char} {taken : List Char}
    (modeEq : (scanner.step c).mode = .inside .closing taken) :
    (scanner.step c).emitted = scanner.emitted ∧
      (taken = [] ∧ c = '/' ∧ scanner.mode = .tag ∨
        ∃ before, taken = c :: before ∧ c ≠ '>' ∧ scanner.mode = .inside .closing before) := by
  cases beforeEq : scanner.mode with
  | failed error =>
      rw [step_of_failed ⟨error, beforeEq⟩, beforeEq] at modeEq
      cases modeEq
  | text run =>
      rcases mode_step_of_text beforeEq c with ⟨run', isText⟩ | isTag | ⟨error, failed⟩
      · rw [isText] at modeEq
        cases modeEq
      · rw [isTag] at modeEq
        cases modeEq
      · rw [failed] at modeEq
        cases modeEq
  | tag =>
      simp only [step, beforeEq] at modeEq ⊢
      split at modeEq
      · rename_i slash
        cases modeEq
        rw [if_pos slash]
        exact ⟨rfl, .inl ⟨rfl, slash, trivial⟩⟩
      · split at modeEq
        · cases modeEq
        · split at modeEq
          · cases modeEq
          · cases (closing_of_stepInside modeEq).2.2.2
  | bang =>
      simp only [step, beforeEq, bangMode] at modeEq
      repeat' split at modeEq
      all_goals cases modeEq
  | inside piece others =>
      simp only [step, beforeEq] at modeEq ⊢
      obtain ⟨emittedEq, takenEq, noEnd, isClosing⟩ := closing_of_stepInside modeEq
      exact ⟨emittedEq, .inr ⟨others, takenEq, noEnd, by rw [isClosing]⟩⟩

private theorem behind_of_closing {extended : Bool} {chars taken : List Char}
    (modeEq : (chars.foldl step (ofSource extended source)).mode = .inside .closing taken) :
    ∃ front run, chars = front ++ '<' :: '/' :: taken.reverse ∧ '>' ∉ taken ∧
      (front.foldl step (ofSource extended source)).mode = .text run ∧
      (chars.foldl step (ofSource extended source)).emitted =
        ((front.foldl step (ofSource extended source)).step '<').emitted := by
  -- From the end: the last character tells what the scanner was inside of before it.
  induction chars using List.reverseRecOn generalizing taken with
  | nil => cases modeEq
  | append_singleton chars c ih =>
      rw [List.foldl_append, List.foldl_cons, List.foldl_nil] at modeEq ⊢
      obtain ⟨emittedEq, ⟨rfl, rfl, isTag⟩ | ⟨before, rfl, noEnd, inClosing⟩⟩ :=
        closing_of_step_closing modeEq
      · rcases List.eq_nil_or_concat chars with rfl | ⟨front, sign, rfl⟩
        · cases isTag
        · rw [List.concat_eq_append, List.foldl_append, List.foldl_cons, List.foldl_nil] at isTag emittedEq ⊢
          obtain ⟨rfl, run, textEq⟩ := text_of_step_tag isTag
          refine ⟨front, run, ?_, List.not_mem_nil, textEq, emittedEq⟩
          rw [List.append_assoc]
          rfl
      · obtain ⟨front, run, charsEq, noEndBefore, textEq, emittedBefore⟩ := ih inClosing
        refine ⟨front, run, ?_, ?_, textEq, emittedEq.trans emittedBefore⟩
        · rw [charsEq, List.reverse_cons]
          simp only [List.append_assoc, List.cons_append]
        · rw [List.mem_cons]
          exact fun member => member.elim (noEnd ∘ Eq.symm) noEndBefore

end Scanner

/-! ### Documents whose first element is complete -/

/-- The tokens hold the first element of a document up to its end tag: whatever comes behind them,
it is this one. -/
def HoldsRoot (tokens : List Token) (root : Tag) (inside : Content) : Prop :=
  ∀ ending more, Document.ofTokens ending (tokens ++ more) = .rooted root inside

section Roots

variable {extended : Bool} {tokens tokens' : List Token} {root : Tag} {inside : Content}

theorem HoldsRoot.of_prefix (holds : HoldsRoot tokens root inside) (isPrefix : tokens <+: tokens') :
    HoldsRoot tokens' root inside := by
  obtain ⟨between, rfl⟩ := isPrefix
  intro ending more
  rw [List.append_assoc]
  exact holds ending (between ++ more)

theorem HoldsRoot.parse_eq {document : String}
    (holds : HoldsRoot (tokenize extended document).tokens root inside) :
    Document.parse extended document = .rooted root inside := by
  have whole := holds (tokenize extended document).ending []
  rwa [List.append_nil] at whole

private theorem exists_left_of_append {first left right after : List Token} {token : Token}
    (notRight : token ∉ right) (split : left ++ right = first ++ token :: after) :
    ∃ later, left = first ++ token :: later := by
  rcases List.append_eq_append_iff.1 split with ⟨between, _, rightEq⟩ | ⟨between, leftEq, split⟩
  · apply absurd _ notRight
    rw [rightEq]
    exact List.mem_append_right _ List.mem_cons_self
  · cases between with
    | nil =>
        rw [List.nil_append] at split
        exact absurd (split ▸ List.mem_cons_self) notRight
    | cons head later =>
        cases split
        exact ⟨later, leftEq⟩

private theorem holdsRoot_of_texts {ending : Ending} {texts : List Token}
    (onlyTexts : ∀ token ∈ texts, ∃ content, token.kind = .text content)
    (rooted : Document.ofTokens ending (tokens ++ texts) = .rooted root inside)
    (complete : inside.break? = none) : HoldsRoot tokens root inside := by
  intro ending' more
  induction tokens with
  | nil =>
      have noRoot : Document.ofTokens ending texts = .empty ending := by
        clear rooted
        induction texts with
        | nil => rfl
        | cons token texts ih =>
            obtain ⟨content, kind⟩ := onlyTexts token List.mem_cons_self
            simp only [Document.ofTokens, kind]
            exact ih fun other member => onlyTexts other (List.mem_cons_of_mem _ member)
      rw [List.nil_append, noRoot] at rooted
      cases rooted
  | cons token rest ih =>
      rw [List.cons_append, Document.ofTokens] at rooted ⊢
      cases kind : token.kind with
      | text content =>
          rw [kind] at rooted
          exact ih rooted
      | closing name =>
          rw [kind] at rooted
          exact ih rooted
      | opening name attributes =>
          rw [kind] at rooted
          simp only [Document.rooted.injEq] at rooted ⊢
          obtain ⟨rootEq, insideEq⟩ := rooted
          refine ⟨rootEq, ?_⟩
          rcases Content.ofTokens_cases ending (rest ++ texts) with
            ⟨first, closing, after, split, spans⟩ | ⟨broken, _⟩
          · rw [insideEq] at spans
            have noText : closing ∉ texts := by
              intro member
              obtain ⟨content, textKind⟩ := onlyTexts closing member
              obtain ⟨closingName, closingKind⟩ := spans.closing_kind
              rw [textKind] at closingKind
              cases closingKind
            obtain ⟨later, rfl⟩ := exists_left_of_append noText split
            rw [List.append_assoc, List.cons_append, Content.ofTokens_of_spans spans]
          · rw [insideEq, complete] at broken
            cases broken

theorem holdsRoot_of_parse {document : String}
    (rooted : Document.parse extended document = .rooted root inside)
    (complete : inside.break? = none) :
    HoldsRoot (tokenize extended document).tokens root inside := by
  have noTexts : ∀ token ∈ ([] : List Token), ∃ content, token.kind = .text content := by
    intro token impossible
    cases impossible
  apply holdsRoot_of_texts noTexts _ complete
  · exact (tokenize extended document).ending
  · rw [List.append_nil]
    exact rooted

end Roots

/-! ### Documents that begin with another -/

private theorem withoutMark_eq_append {chars front rest : List Char}
    (split : withoutMark chars = front ++ rest) :
    ∃ lead, chars = lead ++ rest ∧ withoutMark lead = front := by
  cases chars with
  | nil =>
      obtain ⟨rfl, rfl⟩ := List.nil_eq_append_iff.1 split
      exact ⟨[], rfl, rfl⟩
  | cons c chars =>
      by_cases isMark : c = '\uFEFF'
      · rw [withoutMark, if_pos isMark] at split
        refine ⟨c :: front, ?_, ?_⟩
        · rw [split, List.cons_append]
        · rw [withoutMark, if_pos isMark]
      · rw [withoutMark, if_neg isMark] at split
        refine ⟨front, split, ?_⟩
        cases front with
        | nil => rfl
        | cons first front =>
            cases split
            rw [withoutMark, if_neg isMark]

private theorem outlasts_scanned {extended extended' : Bool}
    (wider : extended = true → extended' = true)
    (document : String) {source' : List Char} (isPrefix : document.toList <+: source') :
    Scanner.Outlasts document.toList source' (scanned extended document)
      ((withoutMark document.toList).foldl Scanner.step (Scanner.ofSource extended' source')) := by
  have start := Scanner.attends_ofSource source' wider document.toList
  apply start.foldl_step isPrefix
  have bound := utf8Length_withoutMark document.toList
  change 0 + _ ≤ _
  rwa [Nat.zero_add]

theorem tokenize_extended {extended extended' : Bool} (wider : extended = true → extended' = true)
    (document : String) :
    (tokenize extended document).tokens <+: (tokenize extended' document).tokens :=
  (outlasts_scanned wider document (List.prefix_refl _)).finish (List.prefix_refl _)

section Behind

variable {extended : Bool} {document : String} {root : Tag} {inside : Content}

theorem HoldsRoot.toList_ne_nil (holds : HoldsRoot (tokenize extended document).tokens root inside) :
    document.toList ≠ [] := by
  intro empty
  have noTokens : (tokenize extended document).tokens = [] := by
    rw [tokenize, empty]
    rfl
  rw [noTokens] at holds
  cases holds (.failed .emptyDoctype) []

/-- The first element is complete before the document ends, or the document ends inside an end tag. -/
theorem HoldsRoot.before_end (holds : HoldsRoot (tokenize extended document).tokens root inside)
    (complete : inside.break? = none) :
    HoldsRoot (scanned extended document).emitted.reverse root inside ∨
      ∃ taken, (scanned extended document).mode = .inside .closing taken := by
  by_cases inClosing : ∃ taken, (scanned extended document).mode = .inside .closing taken
  · exact .inr inClosing
  · left
    obtain ⟨texts, tokensEq, onlyTexts⟩ := Scanner.finish_elsewhere fun taken modeEq =>
      inClosing ⟨taken, modeEq⟩
    have rooted := holds.parse_eq
    change Document.ofTokens _ (scanned extended document).finish.tokens = _ at rooted
    rw [tokensEq] at rooted
    exact holdsRoot_of_texts onlyTexts rooted complete

/-- What is complete before the document ends is so in every document that goes on. -/
theorem HoldsRoot.append (holds : HoldsRoot (scanned extended document).emitted.reverse root inside)
    (filled : document.toList ≠ []) (rest : String) :
    HoldsRoot (tokenize extended (document ++ rest)).tokens root inside := by
  apply holds.of_prefix
  have isPrefix : document.toList <+: (document ++ rest).toList := by
    rw [String.toList_append]
    exact List.prefix_append _ _
  have goesOn := List.reverse_prefix.2
    (@outlasts_scanned extended _ id document _ isPrefix).emitted
  unfold tokenize
  simp only
  rw [String.toList_append] at goesOn ⊢
  rw [withoutMark_append filled, List.foldl_append]
  apply goesOn.trans
  exact (List.reverse_prefix.2 (Scanner.Grows.foldl_step _ _).emitted).trans (Scanner.emitted_finish _)

/-- A document that ends inside an end tag has its tokens also where the tag ends. -/
theorem tokenize_append_sign {taken : List Char}
    (modeEq : (scanned extended document).mode = .inside .closing taken)
    (filled : document.toList ≠ []) (rest : String) :
    (tokenize extended document).tokens <+: (tokenize extended (document ++ ">" ++ rest)).tokens := by
  have isPrefix : document.toList <+: (document ++ ">" ++ rest).toList := by
    rw [String.toList_append, String.toList_append, List.append_assoc]
    exact List.prefix_append _ _
  have outlasts := @outlasts_scanned extended _ id document _ isPrefix
  have tokensPrefix := outlasts.finish isPrefix
  generalize reachedEq : (withoutMark document.toList).foldl Scanner.step
    (Scanner.ofSource extended (document ++ ">" ++ rest).toList) = reached at outlasts tokensPrefix
  have modeEq' : reached.mode = .inside .closing taken := by
    cases outlasts with
    | attends attends => rw [attends.mode_eq, modeEq]
    | alone failed _ =>
        obtain ⟨error, failedEq⟩ := failed
        rw [modeEq] at failedEq
        cases failedEq
  rw [Scanner.finish_of_closing modeEq'] at tokensPrefix
  have split : (document ++ ">" ++ rest).toList = document.toList ++ '>' :: rest.toList := by
    rw [String.toList_append, String.toList_append, List.append_assoc]
    rfl
  have wholeEq : (tokenize extended (document ++ ">" ++ rest)).tokens =
      (rest.toList.foldl Scanner.step (reached.step '>')).finish.tokens := by
    unfold tokenize
    simp only
    rw [← reachedEq]
    generalize (document ++ ">" ++ rest).toList = source at split
    rw [split, withoutMark_append filled, List.foldl_append, List.foldl_cons]
  rw [wholeEq]
  apply tokensPrefix.trans
  exact (List.reverse_prefix.2 (Scanner.Grows.foldl_step _ _).emitted).trans (Scanner.emitted_finish _)

/-- If the first element is not complete before an end tag that does not end, then it is not complete
without that tag. -/
theorem exists_front {taken : List Char}
    (modeEq : (scanned extended document).mode = .inside .closing taken) :
    ∃ front tail, document = front ++ "</" ++ tail ∧ '>' ∉ tail.toList ∧
      (tokenize extended front).tokens <+: (scanned extended document).emitted.reverse := by
  obtain ⟨front, run, charsEq, noEnd, textEq, emittedEq⟩ := Scanner.behind_of_closing modeEq
  obtain ⟨lead, documentEq, frontEq⟩ := withoutMark_eq_append charsEq
  refine ⟨String.ofList lead, String.ofList taken.reverse, ?_, ?_, ?_⟩
  · rw [← String.toList_inj, documentEq]
    simp only [String.toList_append, String.toList_ofList, List.append_assoc]
    rfl
  · rw [String.toList_ofList, List.mem_reverse]
    exact noEnd
  · have isPrefix : (String.ofList lead).toList <+: document.toList := by
      rw [String.toList_ofList, documentEq]
      exact List.prefix_append _ _
    have tokensPrefix := (@outlasts_scanned extended _ id (String.ofList lead) _ isPrefix).finish
      isPrefix
    rw [String.toList_ofList, frontEq, Scanner.finish_of_text textEq, ← emittedEq] at tokensPrefix
    exact tokensPrefix

end Behind

end Trellis.Markup
