import Mathlib.Data.List.Induction
import Trellis.Markup.Stretch
import Trellis.Proofs.Markup.Positions

/-!
Documents as rows of passages.

A passage is a run of text or a piece of markup with its signs, and it gives the tokens that its
kind says.  The scanner reads a document as passages, each right behind the one before, and the
position of a token is the place behind all that the document has in front of it.
-/

namespace Trellis.Markup

open Text (utf8Length)

/-! ### Lines and columns -/

def lastLine (text : List Char) : List Char :=
  (text.reverse.takeWhile (· ≠ '\n')).reverse

theorem placeBehind_eq (text : List Char) :
    Scanner.placeBehind text = ⟨1 + text.count '\n', 1 + (lastLine text).length⟩ := by
  induction text using List.reverseRecOn with
  | nil => rfl
  | append_singleton text c ih =>
      have step : Scanner.placeBehind (text ++ [c]) =
          Scanner.placeBehind.place (Scanner.placeBehind text) c := by
        simp only [Scanner.placeBehind, List.foldl_append, List.foldl_cons, List.foldl_nil]
      rw [step, ih, Scanner.placeBehind.place, List.count_append]
      by_cases ends : c = '\n'
      · simp [ends, lastLine, Nat.add_assoc]
      · simp [ends, lastLine, Nat.add_comm]

/-! ### Pieces with their signs -/

/-- What stands between the `<` and the text of a piece. -/
def Piece.sign : Piece → List Char
  | .element _ => []
  | .closing => ['/']
  | .instruction => ['?']
  | .comment | .cdata | .doctype => ['!']

def Piece.Opens (piece : Piece) (text : List Char) : Prop :=
  match piece with
  | .element quote => quote = none ∧ ∀ c, text.head? = some c → c ∉ ['/', '?', '!']
  | .closing | .instruction => True
  | .comment => text.head? = some '-'
  | .cdata => text.head? = some '['
  | .doctype => text.head? = some 'D' ∨ text.head? = some 'd'

theorem Piece.Opens.snoc {piece : Piece} {text : List Char} (opens : piece.Opens text)
    (told : text = [] → piece.sign ≠ []) (c : Char) : piece.Opens (text ++ [c]) := by
  cases text with
  | nil => cases piece <;> simp_all [Piece.Opens, Piece.sign]
  | cons first rest => cases piece <;> exact opens

def Piece.behind (piece : Piece) (text : List Char) : Piece :=
  text.foldl Piece.after piece

def Piece.GoesOn (piece : Piece) (text : List Char) : Prop :=
  ∀ before after, text = before ++ '>' :: after → (piece.behind before).endsAfter before.reverse = false

theorem Piece.GoesOn.nil (piece : Piece) : piece.GoesOn [] := by
  intro before after split
  cases before <;> cases split

theorem Piece.GoesOn.snoc {piece : Piece} {text : List Char} (goesOn : piece.GoesOn text) {c : Char}
    (refuses : c = '>' → (piece.behind text).endsAfter text.reverse = false) :
    piece.GoesOn (text ++ [c]) := by
  intro before after split
  rcases List.eq_nil_or_concat after with rfl | ⟨after, last, rfl⟩
  · obtain ⟨rfl, same⟩ := List.append_inj' split rfl
    exact refuses (List.singleton_inj.1 same)
  · rw [List.concat_eq_append, ← List.cons_append, ← List.append_assoc] at split
    exact goesOn before after (List.append_inj' split rfl).1

/-- How a piece with the text ends: with the first `>` that its kind accepts, or, for some kinds, with
the document. -/
inductive Piece.Stops (piece : Piece) (text unread : List Char) : List Char → Prop
  | sign (goesOn : piece.GoesOn text) (accepts : (piece.behind text).endsAfter text.reverse = true) :
      Stops piece text unread ['>']
  | document (goesOn : piece.GoesOn text) (mayEnd : Scanner.unfinished? piece = none)
      (atEnd : unread = []) : Stops piece text unread []

theorem Piece.behind_eq {piece : Piece} (fixed : ∀ c, piece.after c = piece) {text : List Char} :
    piece.behind text = piece := by
  unfold Piece.behind
  induction text with
  | nil => rfl
  | cons c text ih => rw [List.foldl_cons, fixed, ih]

theorem Piece.behind_element (quote : Option Char) (text : List Char) :
    ∃ quote', (Piece.element quote).behind text = .element quote' := by
  unfold Piece.behind
  induction text generalizing quote with
  | nil => exact ⟨quote, rfl⟩
  | cons c text ih => cases quote <;> exact ih _

def tagAttributes (extended : Bool) (text : List Char) : Except MarkupError (List (String × String)) :=
  let name := text.takeWhile fun c => !isTagBlank c
  decodeAttributes extended (utf8Length name) (text.drop name.length)

theorem Scanner.endElement_eq (scanner : Scanner) (text : List Char) :
    scanner.endElement text =
      match tagAttributes scanner.extended (tagBody text) with
      | .error error => scanner.fail error
      | .ok attributes =>
          let opening := scanner.emit (.opening (tagName (tagBody text)) attributes) scanner.start
          if text.getLast? = some '/' then
            (opening.emit (.closing (tagName (tagBody text))) scanner.offset).beginText
          else ({ opening with opened := tagName (tagBody text) :: scanner.opened }).beginText := by
  rw [endElement]
  rfl

/-- Tokens, each with the characters of its passage, or of the document, in front of it. -/
abbrev Shown := List (TokenKind × List Char)

/-- The tokens of a piece, by its kind and its text.  `whole` is the piece with its signs. -/
inductive Piece.Means (extended : Bool) (whole : List Char) : Piece → List Char → Shown → Prop
  | opening {text : List Char} {attributes : List (String × String)}
      (open_ : text.getLast? ≠ some '/') (decoded : tagAttributes extended text = .ok attributes) :
      Means extended whole (.element none) text [(.opening (tagName text) attributes, [])]
  /-- The end tag that an empty tag stands for comes behind the tag. -/
  | empty {text : List Char} {attributes : List (String × String)}
      (decoded : tagAttributes extended text = .ok attributes) :
      Means extended whole (.element none) (text ++ ['/'])
        [(.opening (tagName text) attributes, []), (.closing (tagName text), whole)]
  | closing (text : List Char) :
      Means extended whole .closing text [(.closing (String.ofList (closingName text)), [])]
  | cdata {text : List Char} (labelled : beginsWith "[CDATA[".toList text = true) :
      Means extended whole .cdata text
        [(.text (String.ofList ((text.drop 7).take (text.length - 9))), [])]
  | instruction (text : List Char) : Means extended whole .instruction text []
  | comment (text : List Char) : Means extended whole .comment text []
  | doctype (text : List Char) : Means extended whole .doctype text []

/-! ### Passages -/

/-- The characters are one passage, in front of what is unread, and it gives the tokens. -/
inductive Passage (extended : Bool) (unread : List Char) : List Char → Shown → Prop
  | text {run : List Char} {content : String} (filled : run ≠ []) (noSign : '<' ∉ run)
      (maximal : ∀ c, unread.head? = some c → c = '<') (decoded : decode extended run = .ok content) :
      Passage extended unread run [(.text content, [])]
  | piece {piece : Piece} {text ending : List Char} {shown : Shown} (opens : piece.Opens text)
      (stops : piece.Stops text unread ending)
      (means : piece.Means extended ('<' :: piece.sign ++ (text ++ ending)) text shown) :
      Passage extended unread ('<' :: piece.sign ++ (text ++ ending)) shown

def Shown.behind (front : List Char) (shown : Shown) : Shown :=
  shown.map fun token => (token.1, front ++ token.2)

/-- The characters from the beginning of a document on are passages, in front of what is unread, and
they give the tokens. -/
inductive Reads (extended : Bool) : List Char → Shown → List Char → Prop
  | nothing (unread : List Char) : Reads extended [] [] unread
  | passage {read own unread : List Char} {shown later : Shown}
      (reads : Reads extended read shown (own ++ unread))
      (passage : Passage extended unread own later) :
      Reads extended (read ++ own) (shown ++ later.behind read) unread

namespace Scanner

def placed (scanner : Scanner) : List (TokenKind × Position) :=
  scanner.emitted.reverse.map fun token => (token.kind, token.position)

def places (shown : Shown) : List (TokenKind × Position) :=
  shown.map fun token => (token.1, placeBehind token.2)

@[simp] theorem places_append (shown later : Shown) :
    places (shown ++ later) = places shown ++ places later := by
  simp [places]

variable {source : List Char} {scanner : Scanner}

theorem placed_emit {byte : Nat} (tracks : TracksTo source byte scanner.tracker) {front : List Char}
    (isPrefix : front <+: source) (later : byte ≤ utf8Length front) (kind : TokenKind) :
    (scanner.emit kind (utf8Length front)).placed = scanner.placed ++ [(kind, placeBehind front)] := by
  obtain ⟨rest, rfl⟩ := isPrefix
  simp only [placed, emit, List.reverse_cons, List.map_append, List.map_cons, List.map_nil,
    tracks.advance_eq later]
  rw [← positionAt_append front rest]
  rfl

/-! ### The end of a piece -/

/-- The scanner has failed without a token, or it stands behind a passage that gives these tokens. -/
def Passes (front : List Char) (scanner after : Scanner) (means : Shown → Prop) : Prop :=
  (after.Failed ∧ after.emitted = scanner.emitted) ∨
    (after.mode = .text [] ∧ ∃ shown, means shown ∧
      after.placed = scanner.placed ++ places (shown.behind front))

theorem Passes.silent {front : List Char} {after : Scanner} {means : Shown → Prop}
    (modeEq : after.mode = .text []) (same : after.emitted = scanner.emitted) (meant : means []) :
    Passes front scanner after means := by
  refine .inr ⟨modeEq, [], meant, ?_⟩
  rw [placed, same, ← placed]
  exact (List.append_nil _).symm

section EndPiece

variable {front whole : List Char} (startEq : scanner.start = utf8Length front)
  (offsetEq : scanner.offset = utf8Length (front ++ whole))
  (tracks : TracksTo source scanner.start scanner.tracker) (isPrefix : front ++ whole <+: source)
include startEq tracks isPrefix

private theorem placed_emit_start (kind : TokenKind) :
    (scanner.emit kind scanner.start).placed =
      scanner.placed ++ places (Shown.behind front [(kind, [])]) := by
  have isPrefix' : front <+: source := (List.prefix_append front whole).trans isPrefix
  rw [startEq] at tracks
  rw [startEq, placed_emit tracks isPrefix' (Nat.le_refl _)]
  simp only [places, Shown.behind, List.map_cons, List.map_nil, List.append_nil]

private theorem passes_endClosing (text : List Char) :
    Passes front scanner (scanner.endClosing text) (Piece.Means scanner.extended whole .closing text) := by
  unfold endClosing
  split
  · exact .inl ⟨⟨_, rfl⟩, rfl⟩
  · rename_i expected opened _
    simp only
    split
    · have emitted := @placed_emit_start source { scanner with opened } front whole startEq tracks isPrefix
        (.closing (String.ofList (closingName text)))
      exact .inr ⟨rfl, _, .closing text, emitted⟩
    · exact .inl ⟨⟨_, rfl⟩, rfl⟩

private theorem passes_endCdata (text : List Char) :
    Passes front scanner (scanner.endCdata text) (Piece.Means scanner.extended whole .cdata text) := by
  unfold endCdata
  split
  · rename_i labelled
    exact .inr ⟨rfl, _, .cdata labelled, placed_emit_start startEq tracks isPrefix _⟩
  · exact .inl ⟨⟨_, rfl⟩, rfl⟩

include offsetEq in
private theorem passes_endElement (text : List Char) :
    Passes front scanner (scanner.endElement text)
      (Piece.Means scanner.extended whole (.element none) text) := by
  rw [endElement_eq]
  by_cases isEmpty : text.getLast? = some '/'
  · obtain ⟨inner, rfl⟩ : ∃ inner, text = inner ++ ['/'] := List.getLast?_eq_some_iff.1 isEmpty
    simp only [isEmpty, if_true, tagBody_concat]
    cases attributesEq : tagAttributes scanner.extended inner with
    | error error => exact .inl ⟨⟨_, rfl⟩, rfl⟩
    | ok attributes =>
        refine .inr ⟨rfl, _, .empty attributesEq, ?_⟩
        -- Two tokens: the second goes behind the whole tag, when the first has moved the tracker.
        have opened := placed_emit_start startEq tracks isPrefix (.opening (tagName inner) attributes)
        have tracks' := tracks.advance (Nat.le_refl scanner.start)
        have startLe : scanner.start ≤ utf8Length (front ++ whole) := by
          rw [startEq, Text.utf8Length_append]
          exact Nat.le_add_right _ _
        have closed := @placed_emit source
          (scanner.emit (.opening (tagName inner) attributes) scanner.start) _ tracks' _ isPrefix startLe
          (.closing (tagName inner))
        rw [← offsetEq, opened, List.append_assoc] at closed
        exact closed
  · simp only [isEmpty, if_false, tagBody_of_open isEmpty]
    cases attributesEq : tagAttributes scanner.extended text with
    | error error => exact .inl ⟨⟨_, rfl⟩, rfl⟩
    | ok attributes =>
        exact .inr ⟨rfl, _, .opening isEmpty attributesEq,
          placed_emit_start startEq tracks isPrefix (.opening (tagName text) attributes)⟩

include offsetEq in
private theorem passes_endPiece {first : Piece} {text : List Char} (opens : first.Opens text) :
    Passes front scanner (scanner.endPiece (first.behind text) text)
      (Piece.Means scanner.extended whole first text) := by
  cases first with
  | element quote =>
      obtain ⟨quote', behindEq⟩ := Piece.behind_element quote text
      rw [behindEq, opens.1]
      exact passes_endElement startEq offsetEq tracks isPrefix text
  | closing =>
      rw [Piece.behind_eq fun _ => rfl]
      exact passes_endClosing startEq tracks isPrefix text
  | cdata =>
      rw [Piece.behind_eq fun _ => rfl]
      exact passes_endCdata startEq tracks isPrefix text
  | instruction =>
      rw [Piece.behind_eq fun _ => rfl]
      simp only [endPiece, endInstruction]
      split
      · split <;> exact .silent rfl rfl (.instruction text)
      · exact .inl ⟨⟨_, rfl⟩, rfl⟩
  | comment =>
      rw [Piece.behind_eq fun _ => rfl]
      simp only [endPiece, endComment]
      split
      · exact .silent rfl rfl (.comment text)
      · exact .inl ⟨⟨_, rfl⟩, rfl⟩
  | doctype =>
      rw [Piece.behind_eq fun _ => rfl]
      simp only [endPiece, endDoctype]
      split
      · split
        · exact .inl ⟨⟨_, rfl⟩, rfl⟩
        · exact .silent rfl rfl (.doctype text)
      · exact .inl ⟨⟨_, rfl⟩, rfl⟩

end EndPiece

/-! ### Steps -/

def Pending (mode : Mode) (pending : List Char) : Prop :=
  match mode with
  | .text taken => pending = taken.reverse ∧ '<' ∉ pending
  | .tag => pending = ['<']
  | .bang => pending = ['<', '!']
  | .inside piece taken => ∃ first : Piece,
      pending = '<' :: first.sign ++ taken.reverse ∧ first.Opens taken.reverse ∧
        (taken = [] → first.sign ≠ []) ∧ first.behind taken.reverse = piece ∧ first.GoesOn taken.reverse
  | .failed _ => True

abbrev Account := List Char → Shown → List Char → Prop

def Account.Continues (R : Account) (extended : Bool) : Prop :=
  ∀ {read own unread : List Char} {shown later : Shown}, R read shown (own ++ unread) →
    Passage extended unread own later → R (read ++ own) (shown ++ later.behind read) unread

/-- The characters are those read, as the account has them, and those of a passage that has begun. -/
structure Explains (R : Account) (extended : Bool) (scanner : Scanner) (read pending : List Char)
    (shown : Shown) : Prop where
  extended_eq : scanner.extended = extended
  /-- Whatever comes next. -/
  reads : ∀ next, R read shown (pending ++ next)
  placed_eq : scanner.placed = places shown
  pending : Pending scanner.mode pending
  start_eq : ¬ scanner.Failed → scanner.start = utf8Length read

def Explained (R : Account) (extended : Bool) (chars : List Char) (scanner : Scanner) : Prop :=
  ∃ read pending shown, chars = read ++ pending ∧ scanner.Explains R extended read pending shown

variable {R : Account} {extended : Bool} {read pending : List Char} {shown : Shown}

theorem Explains.fails (explains : scanner.Explains R extended read pending shown) {after : Scanner}
    (grows : Grows scanner after) (failed : after.Failed) (same : after.emitted = scanner.emitted)
    (more : List Char) : after.Explains R extended read (pending ++ more) shown := by
  refine ⟨grows.extended_eq.trans explains.extended_eq, ?_, ?_, ?_, fun alive => absurd failed alive⟩
  · intro next
    rw [List.append_assoc]
    exact explains.reads _
  · rw [placed, same, ← placed, explains.placed_eq]
  · obtain ⟨error, modeEq⟩ := failed
    rw [modeEq]
    trivial

theorem Explains.explained_failed (explains : scanner.Explains R extended read pending shown)
    {after : Scanner} (grows : Grows scanner after) (failed : after.Failed)
    (same : after.emitted = scanner.emitted) (c : Char) :
    Explained R extended (read ++ pending ++ [c]) after :=
  ⟨read, pending ++ [c], shown, List.append_assoc _ _ _, explains.fails grows failed same [c]⟩

theorem Explains.explained_turn (explains : scanner.Explains R extended read pending shown)
    (startEq : scanner.start = utf8Length read) (mode : Mode) {c : Char}
    (isPending : Pending mode (pending ++ [c])) (offset : Nat) :
    Explained R extended (read ++ pending ++ [c]) { scanner with mode, offset } := by
  refine ⟨read, pending ++ [c], shown, List.append_assoc _ _ _, explains.extended_eq, ?_,
    explains.placed_eq, isPending, fun _ => startEq⟩
  intro next
  rw [List.append_assoc]
  exact explains.reads _

section Inside

variable (continues : R.Continues extended)
  (explains : scanner.Explains R extended read pending shown) {first : Piece} {taken : List Char}
  (pendingEq : pending = '<' :: first.sign ++ taken.reverse) (startEq : scanner.start = utf8Length read)
  (placed : Placed source scanner) (opens : first.Opens taken.reverse)
include continues explains pendingEq startEq placed opens

private theorem explained_endPiece {ending : List Char}
    (offsetEq : scanner.offset = utf8Length (read ++ (pending ++ ending)))
    (isPrefix : read ++ (pending ++ ending) <+: source) :
    let after := scanner.endPiece (first.behind taken.reverse) taken.reverse
    (after.Failed ∧ after.emitted = scanner.emitted) ∨
      ∃ shown', after.mode = .text [] ∧ after.placed = places shown' ∧
        after.start = utf8Length (read ++ (pending ++ ending)) ∧
        ∀ unread, first.Stops taken.reverse unread ending →
          R (read ++ (pending ++ ending)) shown' unread := by
  intro after
  have wholeEq : pending ++ ending = '<' :: first.sign ++ (taken.reverse ++ ending) := by
    rw [pendingEq, List.append_assoc]
  rw [wholeEq] at offsetEq isPrefix
  rcases passes_endPiece startEq offsetEq placed.tracks isPrefix opens with
    failed | ⟨modeEq, later, means, placedEq⟩
  · exact .inl failed
  · refine .inr ⟨shown ++ later.behind read, modeEq, ?_, ?_, ?_⟩
    · rw [places_append, ← explains.placed_eq]
      exact placedEq
    · have ends := (placed.endPiece (first.behind taken.reverse) taken.reverse).text [] modeEq
      rw [offset_endPiece, offsetEq] at ends
      rw [wholeEq]
      exact ends.symm
    · intro unread stops
      have reads := explains.reads (ending ++ unread)
      rw [← List.append_assoc, wholeEq] at reads
      rw [wholeEq]
      rw [explains.extended_eq] at means
      exact continues reads (.piece opens stops means)

private theorem explained_stepInside {c : Char} (goesOn : first.GoesOn taken.reverse)
    (opensNext : first.Opens (taken.reverse ++ [c]))
    (offsetEq : scanner.offset = utf8Length (read ++ pending ++ [c]))
    (isPrefix : read ++ pending ++ [c] <+: source) :
    Explained R extended (read ++ pending ++ [c])
      (scanner.stepInside (first.behind taken.reverse) taken c) := by
  unfold Scanner.stepInside
  split
  · rename_i ends
    simp only [Bool.and_eq_true, decide_eq_true_eq] at ends
    obtain ⟨rfl, accepts⟩ := ends
    have accepts' : (first.behind taken.reverse).endsAfter taken.reverse.reverse = true := by
      rw [List.reverse_reverse]
      exact accepts
    have grows := Grows.endPiece scanner (first.behind taken.reverse) taken.reverse
    rw [List.append_assoc] at offsetEq isPrefix
    rcases explained_endPiece continues explains pendingEq startEq placed opens offsetEq isPrefix with
      ⟨failed, same⟩ | ⟨shown', modeEq, placedEq, startEq', reads⟩
    · exact explains.explained_failed grows failed same _
    · refine ⟨read ++ (pending ++ ['>']), [], shown', ?_, grows.extended_eq.trans explains.extended_eq,
        fun next => reads next (.sign goesOn accepts'), placedEq, ?_, fun _ => startEq'⟩
      · rw [List.append_nil, List.append_assoc]
      · rw [modeEq]
        exact ⟨rfl, List.not_mem_nil⟩
  · rename_i goesOnHere
    refine explains.explained_turn startEq (.inside _ _) ⟨first, ?_, ?_, ?_, ?_, ?_⟩ _
    · rw [pendingEq, List.reverse_cons, List.append_assoc]
    · rw [List.reverse_cons]
      exact opensNext
    · exact fun none => absurd none (List.cons_ne_nil _ _)
    · simp only [List.reverse_cons, Piece.behind, List.foldl_append, List.foldl_cons, List.foldl_nil]
    · rw [List.reverse_cons]
      refine goesOn.snoc ?_
      rintro rfl
      rw [List.reverse_reverse]
      simpa using goesOnHere

end Inside

theorem Explains.explained_sign (continues : R.Continues extended)
    (explains : scanner.Explains R extended read pending shown)
    (placed : Placed source scanner) (offsetEq : scanner.offset = utf8Length (read ++ pending))
    (isPrefix : read ++ pending <+: source) {taken : List Char} (modeEq : scanner.mode = .text taken) :
    Explained R extended (read ++ pending ++ ['<']) (scanner.step '<') := by
  have isPending := explains.pending
  rw [modeEq] at isPending
  obtain ⟨rfl, noSign⟩ := isPending
  have startEq := explains.start_eq (by rw [Failed, modeEq]; nofun)
  by_cases empty : taken = []
  · rw [empty] at modeEq offsetEq ⊢
    rw [List.reverse_nil, List.append_nil] at offsetEq ⊢
    rw [step_sign_nil modeEq]
    have reads := explains.reads
    rw [empty] at reads
    exact ⟨read, ['<'], shown, rfl, explains.extended_eq, fun next => reads ('<' :: next),
      explains.placed_eq, rfl, fun _ => offsetEq⟩
  · have filled : taken.reverse ≠ [] := fun none => empty (List.reverse_eq_nil_iff.1 none)
    cases decoded : decode scanner.extended taken.reverse with
    | error error =>
        have grows := Grows.step scanner '<'
        rw [step_sign_error modeEq empty decoded] at grows ⊢
        exact explains.explained_failed grows ⟨_, rfl⟩ rfl _
    | ok content =>
        rw [step_sign_ok modeEq empty decoded]
        have emitted := placed_emit_start startEq placed.tracks isPrefix (.text content)
        rw [explains.placed_eq, ← places_append] at emitted
        rw [explains.extended_eq] at decoded
        refine ⟨read ++ taken.reverse, ['<'], _, rfl, explains.extended_eq, ?_, emitted, rfl,
          fun _ => offsetEq⟩
        intro next
        refine continues (explains.reads ('<' :: next)) (.text filled noSign ?_ decoded)
        exact fun c first => (Option.some_inj.1 first).symm

private theorem pending_bangMode (c : Char) : Pending (bangMode c) (['<', '!'] ++ [c]) := by
  have begun (first : Piece) (signed : first.sign = ['!']) (opens : first.Opens [c])
      (fixed : first.after c = first) (noEnd : c ≠ '>') :
      Pending (.inside first [c]) (['<', '!'] ++ [c]) := by
    refine ⟨first, ?_, opens, fun none => absurd none (List.cons_ne_nil _ _), fixed, ?_⟩
    · rw [signed]
      rfl
    · exact (Piece.GoesOn.nil first).snoc fun ends => absurd ends noEnd
  unfold bangMode
  split
  · rename_i bracket
    exact begun .cdata rfl (congrArg some bracket) rfl (by rw [bracket]; decide)
  · split
    · rename_i dash
      exact begun .comment rfl (congrArg some dash) rfl (by rw [dash]; decide)
    · split
      · rename_i letter
        rw [Bool.or_eq_true, decide_eq_true_iff, decide_eq_true_iff] at letter
        have opens : (Piece.doctype).Opens [c] := letter.imp (congrArg some) (congrArg some)
        exact begun .doctype rfl opens rfl (by rintro rfl; simp at letter)
      · trivial

theorem Explains.explained_step (continues : R.Continues extended)
    (explains : scanner.Explains R extended read pending shown)
    (placed : Placed source scanner) (alive : ¬ scanner.Failed)
    (offsetEq : scanner.offset = utf8Length (read ++ pending)) {c : Char}
    (isPrefix : read ++ pending ++ [c] <+: source) :
    Explained R extended (read ++ pending ++ [c]) (scanner.step c) := by
  have startEq := explains.start_eq alive
  have isPending := explains.pending
  have offsetEq' : scanner.offset + c.utf8Size = utf8Length (read ++ pending ++ [c]) := by
    simp only [Text.utf8Length_append, offsetEq, Text.utf8Length_cons, Text.utf8Length_nil, Nat.add_zero]
  have next : Explains R extended { scanner with offset := scanner.offset + c.utf8Size } read pending
      shown :=
    ⟨explains.extended_eq, explains.reads, explains.placed_eq, isPending, explains.start_eq⟩
  cases modeEq : scanner.mode with
  | failed error => exact absurd ⟨error, modeEq⟩ alive
  | text taken =>
      by_cases sign : c = '<'
      · rw [sign] at isPrefix ⊢
        exact explains.explained_sign continues placed offsetEq ((List.prefix_append _ _).trans isPrefix) modeEq
      · rw [step_text modeEq sign]
        rw [modeEq] at isPending
        obtain ⟨rfl, noSign⟩ := isPending
        refine explains.explained_turn startEq (.text _) ⟨List.reverse_cons.symm, ?_⟩ _
        rw [List.mem_append, List.mem_singleton]
        exact fun member => member.elim noSign (sign ∘ Eq.symm)
  | tag =>
      have placedNext := placed.goOn scanner.mode (by rw [modeEq]; exact fun _ => Mode.noConfusion)
        (Nat.le_add_right scanner.offset c.utf8Size)
      rw [modeEq] at isPending
      have pendingEq : pending = ['<'] := isPending
      simp only [Scanner.step, modeEq]
      split
      · rename_i slash
        refine explains.explained_turn startEq (.inside .closing [])
          ⟨.closing, ?_, trivial, fun _ => List.cons_ne_nil _ _, rfl, Piece.GoesOn.nil _⟩ _
        rw [pendingEq, slash]
        rfl
      · split
        · rename_i question
          refine explains.explained_turn startEq (.inside .instruction [])
            ⟨.instruction, ?_, trivial, fun _ => List.cons_ne_nil _ _, rfl, Piece.GoesOn.nil _⟩ _
          rw [pendingEq, question]
          rfl
        · split
          · rename_i bang
            refine explains.explained_turn startEq .bang ?_ _
            rw [pendingEq, bang]
            rfl
          · rename_i noSlash noQuestion noBang
            have opensNext : (Piece.element none).Opens [c] := by
              refine ⟨rfl, ?_⟩
              simp [noSlash, noQuestion, noBang]
            have begun : pending = '<' :: (Piece.element none).sign ++ List.reverse [] := pendingEq
            have opensHere : (Piece.element none).Opens [] := by
              refine ⟨rfl, ?_⟩
              intro first impossible
              cases impossible
            exact explained_stepInside continues next begun startEq placedNext opensHere (Piece.GoesOn.nil _)
              opensNext offsetEq' isPrefix
  | bang =>
      rw [modeEq] at isPending
      have pendingEq : pending = ['<', '!'] := isPending
      simp only [Scanner.step, modeEq]
      refine explains.explained_turn startEq (bangMode c) ?_ _
      rw [pendingEq]
      exact pending_bangMode c
  | inside piece taken =>
      rw [modeEq] at isPending
      obtain ⟨first, pendingEq, opens, told, behindEq, goesOn⟩ := isPending
      have placedNext := placed.goOn scanner.mode (by rw [modeEq]; exact fun _ => Mode.noConfusion)
        (Nat.le_add_right scanner.offset c.utf8Size)
      simp only [Scanner.step, modeEq]
      rw [← behindEq]
      refine explained_stepInside continues next pendingEq startEq placedNext opens goesOn ?_ offsetEq' isPrefix
      exact opens.snoc (fun none => told (List.reverse_eq_nil_iff.1 none)) c

private theorem explained_foldl_step (extended : Bool) {chars : List Char}
    (isPrefix : chars <+: source) :
    Explained (Reads extended) extended chars (chars.foldl step (ofSource extended source)) := by
  -- From the end: a step is about the last character, behind the passages of those before it.
  induction chars using List.reverseRecOn with
  | nil =>
      exact ⟨[], [], [], rfl, rfl, .nothing, rfl, ⟨rfl, List.not_mem_nil⟩, fun _ => rfl⟩
  | append_singleton chars c ih =>
      obtain ⟨read, pending, shown, rfl, explains⟩ := ih ((List.prefix_append _ _).trans isPrefix)
      rw [List.foldl_append, List.foldl_cons, List.foldl_nil]
      have placed := (Placed.ofSource source extended).foldl_step (read ++ pending)
      by_cases failed : ((read ++ pending).foldl step (ofSource extended source)).Failed
      · rw [step_of_failed failed]
        exact explains.explained_failed (.refl _) failed rfl c
      · have offsetEq := offset_foldl_step failed
        rw [ofSource, Nat.zero_add] at offsetEq
        exact explains.explained_step .passage placed failed offsetEq isPrefix

/-! ### The end of the document -/

/-- The document ends behind the passages, or behind a `<` that nothing follows. -/
def Ends (ending : Ending) (unread : List Char) : Prop :=
  (∃ error, ending = .failed error) ∨ unread = [] ∨ unread = ['<']

def Finishes (R : Account) (chars : List Char) (stream : TokenStream) : Prop :=
  ∃ read unread shown, chars = read ++ unread ∧ R read shown unread ∧
    stream.tokens.map (fun token => (token.kind, token.position)) = places shown ∧
    Ends stream.ending unread

theorem Explains.finishes_failed (explains : scanner.Explains R extended read pending shown)
    (error : MarkupError) : Finishes R (read ++ pending) (scanner.ended (.failed error)) := by
  have reads := explains.reads []
  rw [List.append_nil] at reads
  exact ⟨read, pending, shown, rfl, reads, explains.placed_eq, .inl ⟨error, rfl⟩⟩

theorem Explains.finishes_at (explains : scanner.Explains R extended read pending shown)
    (early : Nat) (ends : scanner.Failed ∨ pending = [] ∨ pending = ['<']) :
    Finishes R (read ++ pending) (scanner.finishedAt early) := by
  have reads := explains.reads []
  rw [List.append_nil] at reads
  refine ⟨read, pending, shown, rfl, reads, ?_, ?_⟩
  · rw [finishedAt_tokens]
    exact explains.placed_eq
  · rcases ends with ⟨error, modeEq⟩ | ends
    · simp only [finishedAt, modeEq]
      exact .inl ⟨error, rfl⟩
    · exact .inr ends

private theorem unfinished?_behind (first : Piece) (text : List Char) :
    unfinished? (first.behind text) = unfinished? first := by
  cases first with
  | element quote =>
      obtain ⟨quote', behindEq⟩ := Piece.behind_element quote text
      rw [behindEq]
      rfl
  | closing | instruction | comment | cdata | doctype => rw [Piece.behind_eq fun _ => rfl]

theorem Explains.finishes_text (continues : R.Continues extended)
    (explains : scanner.Explains R extended read pending shown)
    (placed : Placed source scanner) (isPrefix : read ++ pending <+: source) {taken : List Char}
    (modeEq : scanner.mode = .text taken) (early : Nat) :
    Finishes R (read ++ pending) ((scanner.endText taken).finishedAt early) := by
  have isPending := explains.pending
  rw [modeEq] at isPending
  obtain ⟨rfl, noSign⟩ := isPending
  have startEq := explains.start_eq (by rw [Failed, modeEq]; nofun)
  unfold endText
  split
  · rename_i empty
    rw [List.isEmpty_iff] at empty
    exact explains.finishes_at early (.inr (.inl (List.reverse_eq_nil_iff.2 empty)))
  · rename_i filled
    rw [List.isEmpty_iff, ← List.reverse_eq_nil_iff] at filled
    split
    · rename_i content decoded
      have emitted := placed_emit_start startEq placed.tracks isPrefix (.text content)
      rw [explains.placed_eq, ← places_append] at emitted
      rw [explains.extended_eq] at decoded
      have passage : Passage extended [] taken.reverse [(.text content, [])] :=
        .text filled noSign nofun decoded
      refine ⟨read ++ taken.reverse, [], _, (List.append_nil _).symm,
        continues (explains.reads []) passage, ?_, .inr (.inl rfl)⟩
      rw [finishedAt_tokens]
      exact emitted
    · rename_i error _
      have grows : Grows scanner (scanner.fail (.reference error)) := ⟨rfl, List.suffix_refl _⟩
      rw [← List.append_nil taken.reverse]
      exact (explains.fails grows ⟨_, rfl⟩ rfl []).finishes_at early (.inl ⟨_, rfl⟩)

theorem Explains.finishes (continues : R.Continues extended)
    (explains : scanner.Explains R extended read pending shown)
    (placed : Placed source scanner)
    (offsetEq : ¬ scanner.Failed → scanner.offset = utf8Length (read ++ pending))
    (isPrefix : read ++ pending <+: source) :
    Finishes R (read ++ pending) scanner.finish := by
  have isPending := explains.pending
  unfold finish
  cases modeEq : scanner.mode with
  | failed error => exact explains.finishes_failed error
  | text taken => exact explains.finishes_text continues placed isPrefix modeEq _
  | tag =>
      rw [modeEq] at isPending
      exact explains.finishes_at 1 (.inr (.inr isPending))
  | bang => exact explains.finishes_failed _
  | inside piece taken =>
      have alive : ¬ scanner.Failed := by
        rw [Failed, modeEq]
        nofun
      rw [modeEq] at isPending
      obtain ⟨first, pendingEq, opens, told, rfl, goesOn⟩ := isPending
      simp only
      split
      · exact explains.finishes_failed _
      · rename_i mayEnd
        rw [unfinished?_behind] at mayEnd
        have grows := Grows.endPiece scanner (first.behind taken.reverse) taken.reverse
        have offsetHere := offsetEq alive
        rw [← List.append_nil pending] at offsetHere isPrefix ⊢
        rcases explained_endPiece continues explains pendingEq (explains.start_eq alive) placed opens offsetHere
          isPrefix with ⟨⟨error, failed⟩, same⟩ | ⟨shown', modeEq', placedEq, startEq, reads⟩
        · exact (explains.fails grows ⟨error, failed⟩ same []).finishes_at 0 (.inl ⟨error, failed⟩)
        · refine ⟨_, [], shown', (List.append_nil _).symm, reads [] (.document goesOn mayEnd rfl), ?_,
            .inr (.inl rfl)⟩
          rw [finishedAt_tokens]
          exact placedEq

end Scanner

/-- Behind a byte order mark, if there is one, the tokens of a document are those of its passages. -/
theorem tokenize_reads (extended : Bool) (document : String) :
    ∃ read unread shown, withoutMark document.toList = read ++ unread ∧
      Reads extended read shown unread ∧
      (tokenize extended document).tokens.map (·.kind) = shown.map Prod.fst := by
  generalize charsEq : withoutMark document.toList = chars
  have isPrefix : chars <+: chars := List.prefix_refl _
  obtain ⟨before, pending, soFar, split, explains⟩ := Scanner.explained_foldl_step extended isPrefix
  have placed := (Scanner.Placed.ofSource chars extended).foldl_step chars
  have finishes := explains.finishes .passage placed
  rw [← split] at finishes
  obtain ⟨read, unread, shown, readEq, reads, placedEq, _⟩ := finishes (fun alive => by
    rw [Scanner.offset_foldl_step alive, Scanner.ofSource, Nat.zero_add]) isPrefix
  refine ⟨read, unread, shown, readEq, reads, ?_⟩
  have alike : Scanner.Framed [] [] [] (Scanner.ofSource extended chars)
      (Scanner.ofSource extended document.toList) :=
    (Scanner.stands_ofSource extended chars).framed (Scanner.stands_ofSource extended document.toList)
  have alikeThere : Scanner.Framed [] [] [] (chars.foldl Scanner.step (Scanner.ofSource extended chars))
      (chars.foldl Scanner.step (Scanner.ofSource extended document.toList)) := alike.foldl_step (.inl rfl)
  obtain ⟨kinds, kindsEq, kindsEq'⟩ := alikeThere.finish
  have shownEq := congrArg (List.map Prod.fst) placedEq
  rw [Scanner.places, List.map_map, List.map_map] at shownEq
  rw [tokenize]
  simp only [charsEq]
  rw [kindsEq', ← kindsEq]
  exact shownEq

end Trellis.Markup
