import Trellis.Proofs.Markup.Passages

/-!
Documents with mistakes.

A run of text with a wrong reference, and a start tag with wrong attributes, are passages that give no
token of their own; of an empty tag the end tag is left.  The scanner goes on behind them, so that all
tokens of a document, those behind its mistakes too, stand behind what the document has in front of
them.
-/

namespace Trellis.Markup

open Text (utf8Length)

/-- The characters are a run of text or a start tag with a mistake, in front of what is unread. -/
inductive Lapse (extended : Bool) (unread : List Char) : List Char → Shown → Prop
  | text {run : List Char} {error : ReferenceError} (filled : run ≠ []) (noSign : '<' ∉ run)
      (maximal : ∀ c, unread.head? = some c → c = '<') (mistaken : decode extended run = .error error) :
      Lapse extended unread run []
  | opening {text : List Char} {error : MarkupError} (opens : (Piece.element none).Opens text)
      (stops : (Piece.element none).Stops text unread ['>']) (open_ : text.getLast? ≠ some '/')
      (mistaken : tagAttributes extended text = .error error) :
      Lapse extended unread ('<' :: (text ++ ['>'])) []
  | empty {text : List Char} {error : MarkupError} (opens : (Piece.element none).Opens (text ++ ['/']))
      (stops : (Piece.element none).Stops (text ++ ['/']) unread ['>'])
      (mistaken : tagAttributes extended text = .error error) :
      Lapse extended unread ('<' :: (text ++ ['/', '>']))
        [(.closing (tagName text), '<' :: (text ++ ['/', '>']))]

/-- The characters from the beginning of a document on are passages, some of them with a mistake, in
front of what is unread, and they give the tokens. -/
inductive Crosses (extended : Bool) : Scanner.Account
  | nothing (unread : List Char) : Crosses extended [] [] unread
  | passage {read own unread : List Char} {shown later : Shown}
      (crosses : Crosses extended read shown (own ++ unread))
      (passage : Passage extended unread own later) :
      Crosses extended (read ++ own) (shown ++ later.behind read) unread
  | lapse {read own unread : List Char} {shown later : Shown}
      (crosses : Crosses extended read shown (own ++ unread))
      (lapse : Lapse extended unread own later) :
      Crosses extended (read ++ own) (shown ++ later.behind read) unread

/-- A token of the kind has `front` in front of it: it is the first of a passage, or it is the end tag
that an empty tag stands for, right behind the tag, whose attributes may be wrong. -/
inductive StandsBehind (extended : Bool) (document : List Char) : TokenKind → List Char → Prop
  | written {kind : TokenKind} {front own after : List Char} {later : Shown}
      (documentEq : document = front ++ (own ++ after))
      (passage : Passage extended after own ((kind, []) :: later)) :
      StandsBehind extended document kind front
  | implied {name : String} {attributes : List (String × String)} {front text after : List Char}
      (documentEq : document = front ++ ('<' :: (text ++ ['/', '>']) ++ after))
      (passage : Passage extended after ('<' :: (text ++ ['/', '>']))
        [(.opening name attributes, []), (.closing name, '<' :: (text ++ ['/', '>']))]) :
      StandsBehind extended document (.closing name) (front ++ '<' :: (text ++ ['/', '>']))
  | remaining {name : String} {front text after : List Char}
      (documentEq : document = front ++ ('<' :: (text ++ ['/', '>']) ++ after))
      (lapse : Lapse extended after ('<' :: (text ++ ['/', '>']))
        [(.closing name, '<' :: (text ++ ['/', '>']))]) :
      StandsBehind extended document (.closing name) (front ++ '<' :: (text ++ ['/', '>']))

variable {extended : Bool}

private theorem Passage.stands {front own after : List Char} {shown : Shown}
    (passage : Passage extended after own shown) {kind : TokenKind} {inner : List Char}
    (member : (kind, inner) ∈ shown) :
    StandsBehind extended (front ++ (own ++ after)) kind (front ++ inner) := by
  have passage' := passage
  cases passage with
  | text =>
      cases List.mem_singleton.1 member
      rw [List.append_nil]
      exact .written rfl passage'
  | @piece piece text ending _ opens stops means =>
      cases means with
      | opening | closing | cdata =>
          cases List.mem_singleton.1 member
          rw [List.append_nil]
          exact .written rfl passage'
      | instruction | comment | doctype => cases member
      | @empty text attributes decoded =>
          rcases List.mem_cons.1 member with first | second
          · cases first
            rw [List.append_nil]
            exact .written rfl passage'
          · cases List.mem_singleton.1 second
            cases stops with
            | document _ mayEnd => cases mayEnd
            | sign =>
                have wholeEq : '<' :: (Piece.element none).sign ++ (text ++ ['/'] ++ ['>']) =
                    '<' :: (text ++ ['/', '>']) := by
                  rw [List.append_assoc]
                  rfl
                rw [wholeEq] at passage' ⊢
                exact .implied rfl passage'

private theorem Lapse.stands {front own after : List Char} {shown : Shown}
    (lapse : Lapse extended after own shown) {kind : TokenKind} {inner : List Char}
    (member : (kind, inner) ∈ shown) :
    StandsBehind extended (front ++ (own ++ after)) kind (front ++ inner) := by
  have lapse' := lapse
  cases lapse with
  | text | opening => cases member
  | empty =>
      cases List.mem_singleton.1 member
      exact .remaining rfl lapse'

theorem Crosses.stands {read unread : List Char} {shown : Shown}
    (crosses : Crosses extended read shown unread) {kind : TokenKind} {front : List Char}
    (member : (kind, front) ∈ shown) : StandsBehind extended (read ++ unread) kind front := by
  induction crosses with
  | nothing => cases member
  | passage _ passage ih =>
      rw [List.append_assoc]
      rcases List.mem_append.1 member with earlier | here
      · exact ih earlier
      · obtain ⟨⟨kind, inner⟩, innerMember, same⟩ := List.mem_map.1 here
        cases same
        exact passage.stands innerMember
  | lapse _ lapse ih =>
      rw [List.append_assoc]
      rcases List.mem_append.1 member with earlier | here
      · exact ih earlier
      · obtain ⟨⟨kind, inner⟩, innerMember, same⟩ := List.mem_map.1 here
        cases same
        exact lapse.stands innerMember

namespace Scanner

variable {scanner : Scanner} {source : List Char}

/-! ### Where mistakes are noticed -/

/-- With the character, a run of text or a start tag with a mistake is at its end. -/
inductive Stumbles (scanner : Scanner) : Char → MarkupError → Prop
  | text {taken : List Char} {error : ReferenceError} (modeEq : scanner.mode = .text taken)
      (filled : taken ≠ []) (mistaken : decode scanner.extended taken.reverse = .error error) :
      Stumbles scanner '<' (.reference error)
  | tag {quote : Option Char} {taken : List Char} {error : MarkupError}
      (modeEq : scanner.mode = .inside (.element quote) taken)
      (accepts : (Piece.element quote).endsAfter taken = true)
      (mistaken : tagAttributes scanner.extended (tagBody taken.reverse) = .error error) :
      Stumbles scanner '>' error

private theorem endPiece_stumbles {piece : Piece} {text : List Char} {error : MarkupError}
    (failed : (scanner.endPiece piece text).mode = .failed error)
    (canBePassed : error.canBePassed = true) :
    ∃ quote, piece = .element quote ∧
      tagAttributes scanner.extended (tagBody text) = .error error := by
  have other (mistake : MarkupError) (cannot : mistake.canBePassed = false)
      (modeEq : Mode.failed mistake = .failed error) : False := by
    cases modeEq
    rw [cannot] at canBePassed
    cases canBePassed
  cases piece with
  | element quote =>
      refine ⟨quote, rfl, ?_⟩
      rw [endPiece, endElement_eq] at failed
      cases attributesEq : tagAttributes scanner.extended (tagBody text) with
      | error mistake =>
          rw [attributesEq] at failed
          cases failed
          rfl
      | ok attributes =>
          rw [attributesEq] at failed
          simp only at failed
          split at failed <;> cases failed
  | closing =>
      simp only [endPiece, endClosing] at failed
      split at failed
      · exact (other _ rfl failed).elim
      · split at failed
        · cases failed
        · exact (other _ rfl failed).elim
  | instruction =>
      simp only [endPiece, endInstruction] at failed
      split at failed
      · split at failed <;> cases failed
      · exact (other _ rfl failed).elim
  | comment =>
      simp only [endPiece, endComment] at failed
      split at failed
      · cases failed
      · exact (other _ rfl failed).elim
  | cdata =>
      simp only [endPiece, endCdata] at failed
      split at failed
      · cases failed
      · exact (other _ rfl failed).elim
  | doctype =>
      simp only [endPiece, endDoctype] at failed
      split at failed
      · split at failed
        · exact (other _ rfl failed).elim
        · cases failed
      · exact (other _ rfl failed).elim

private theorem stepInside_stumbles {piece : Piece} {taken : List Char} {c : Char} {error : MarkupError}
    (failed : (scanner.stepInside piece taken c).mode = .failed error)
    (canBePassed : error.canBePassed = true) :
    c = '>' ∧ ∃ quote, piece = .element quote ∧ (Piece.element quote).endsAfter taken = true ∧
      tagAttributes scanner.extended (tagBody taken.reverse) = .error error := by
  unfold stepInside at failed
  split at failed
  · rename_i ends
    rw [Bool.and_eq_true, decide_eq_true_iff] at ends
    obtain ⟨quote, rfl, mistaken⟩ := endPiece_stumbles failed canBePassed
    exact ⟨ends.1, quote, rfl, ends.2, mistaken⟩
  · cases failed

private theorem tagAttributes_nil (extended : Bool) : tagAttributes extended (tagBody []) = .ok [] := by
  cases extended <;> rfl

private theorem stumbles_of_step {c : Char} {error : MarkupError} (alive : ¬ scanner.Failed)
    (failed : (scanner.step c).mode = .failed error) (canBePassed : error.canBePassed = true) :
    scanner.Stumbles c error := by
  cases modeEq : scanner.mode with
  | failed error => exact absurd ⟨error, modeEq⟩ alive
  | text taken =>
      by_cases sign : c = '<'
      · rw [sign] at failed ⊢
        by_cases empty : taken = []
        · rw [empty] at modeEq
          rw [step_sign_nil modeEq] at failed
          cases failed
        · cases decoded : decode scanner.extended taken.reverse with
          | ok content =>
              rw [step_sign_ok modeEq empty decoded] at failed
              cases failed
          | error mistake =>
              rw [step_sign_error modeEq empty decoded] at failed
              cases failed
              exact .text modeEq empty decoded
      · rw [step_text modeEq sign] at failed
        cases failed
  | tag =>
      simp only [step, modeEq] at failed
      split at failed
      · cases failed
      · split at failed
        · cases failed
        · split at failed
          · cases failed
          · obtain ⟨_, quote, _, _, mistaken⟩ := stepInside_stumbles failed canBePassed
            rw [List.reverse_nil, tagAttributes_nil] at mistaken
            cases mistaken
  | bang =>
      simp only [step, modeEq, bangMode] at failed
      repeat' split at failed
      all_goals cases failed
      cases canBePassed
  | inside piece taken =>
      simp only [step, modeEq] at failed
      obtain ⟨rfl, quote, rfl, accepts, mistaken⟩ := stepInside_stumbles failed canBePassed
      exact .tag modeEq accepts mistaken

theorem Stumbles.emitted_eq {c : Char} {error : MarkupError} (stumbles : scanner.Stumbles c error) :
    (scanner.step c).emitted = scanner.emitted := by
  cases stumbles with
  | text modeEq filled mistaken => rw [step_sign_error modeEq filled mistaken]
  | tag modeEq accepts mistaken =>
      simp only [step, modeEq, stepInside, accepts, decide_true, Bool.and_self, if_true, endPiece,
        endElement_eq, mistaken, fail]

theorem mode_of_finishedAt {early : Nat} {error : MarkupError}
    (failed : (scanner.finishedAt early).ending = .failed error) : scanner.mode = .failed error := by
  unfold finishedAt at failed
  split at failed
  · rename_i mistake modeEq
    cases failed
    exact modeEq
  · cases failed

private theorem finish_stumbles {error : MarkupError} (alive : ¬ scanner.Failed)
    (failed : scanner.finish.ending = .failed error) (canBePassed : error.canBePassed = true) :
    ∃ taken mistake, scanner.mode = .text taken ∧ taken ≠ [] ∧
      decode scanner.extended taken.reverse = .error mistake := by
  unfold finish at failed
  cases modeEq : scanner.mode with
  | failed mistake => exact absurd ⟨mistake, modeEq⟩ alive
  | text taken =>
      rw [modeEq] at failed
      have failed := mode_of_finishedAt failed
      unfold endText at failed
      split at failed
      · rw [modeEq] at failed
        cases failed
      · rename_i filled
        rw [List.isEmpty_iff] at filled
        split at failed
        · rw [emit, modeEq] at failed
          cases failed
        · rename_i mistake mistaken
          exact ⟨taken, mistake, rfl, filled, mistaken⟩
  | tag =>
      rw [modeEq] at failed
      have failed := mode_of_finishedAt failed
      rw [modeEq] at failed
      cases failed
  | bang =>
      rw [modeEq] at failed
      cases failed
      cases canBePassed
  | inside piece taken =>
      rw [modeEq] at failed
      simp only at failed
      split at failed
      · cases failed
        cases canBePassed
      · rename_i mayEnd
        obtain ⟨quote, rfl, _⟩ := endPiece_stumbles (mode_of_finishedAt failed) canBePassed
        cases mayEnd

/-! ### Going on -/

/-- What may be said behind the tokens given before. -/
def Behind (extended : Bool) (earlier : Shown) : Account := fun read shown unread =>
  Crosses extended read (earlier ++ shown) unread

private theorem continues_behind (extended : Bool) (earlier : Shown) :
    (Behind extended earlier).Continues extended := by
  intro read own unread shown later crosses passage
  rw [Behind, ← List.append_assoc]
  exact .passage crosses passage

structure Onward (extended : Bool) (source : List Char) (earlier : Shown) (scanner : Scanner)
    (read pending : List Char) (shown : Shown) (chars : List Char) : Prop where
  explains : scanner.Explains (Behind extended earlier) extended read pending shown
  placed : Placed source scanner
  alive : ¬ scanner.Failed
  offset_eq : scanner.offset = utf8Length (read ++ pending)
  source_eq : source = read ++ pending ++ chars

variable {extended : Bool} {earlier shown : Shown} {read pending rest : List Char} {c : Char}

theorem Onward.isPrefix (onward : scanner.Onward extended source earlier read pending shown rest) :
    read ++ pending <+: source := by
  rw [onward.source_eq]
  exact List.prefix_append _ _

theorem Onward.step
    (onward : scanner.Onward extended source earlier read pending shown (c :: rest))
    (alive : ¬ (scanner.step c).Failed) :
    ∃ read' pending' shown', (scanner.step c).Onward extended source earlier read' pending' shown' rest := by
  have isPrefix : read ++ pending ++ [c] <+: source := by
    rw [onward.source_eq]
    exact ⟨rest, List.append_assoc _ _ _⟩
  obtain ⟨read', pending', shown', charsEq, explains⟩ := onward.explains.explained_step
    (continues_behind extended earlier) onward.placed onward.alive onward.offset_eq isPrefix
  refine ⟨read', pending', shown', explains, onward.placed.step c, alive, ?_, ?_⟩
  · rw [offset_step onward.alive, onward.offset_eq, ← charsEq, Text.utf8Length_append _ [c],
      Text.utf8Length_cons, Text.utf8Length_nil, Nat.add_zero]
  · rw [onward.source_eq, ← charsEq, List.append_cons (read ++ pending) c]

theorem Onward.passText
    (onward : scanner.Onward extended source earlier read pending shown ('<' :: rest))
    {taken : List Char} {error : ReferenceError} (modeEq : scanner.mode = .text taken)
    (filled : taken ≠ []) (mistaken : decode scanner.extended taken.reverse = .error error) :
    (scanner.passMistake '<').Onward extended source (earlier ++ shown) (read ++ taken.reverse) ['<'] []
      rest := by
  obtain ⟨explains, placed, alive, offsetEq, sourceEq⟩ := onward
  have isPending := explains.pending
  rw [modeEq] at isPending
  obtain ⟨rfl, noSign⟩ := isPending
  have passedEq : scanner.passMistake '<' =
      { scanner with offset := scanner.offset + '<'.utf8Size, emitted := [], mode := .tag
                     start := scanner.offset } := by
    simp only [Scanner.passMistake, modeEq]
  rw [passedEq]
  have filled : taken.reverse ≠ [] := fun none => filled (List.reverse_eq_nil_iff.1 none)
  rw [explains.extended_eq] at mistaken
  refine ⟨⟨explains.extended_eq, ?_, rfl, rfl, fun _ => offsetEq⟩, ?_, ?_, ?_, ?_⟩
  · intro next
    refine .lapse (explains.reads ('<' :: next)) (.text filled noSign ?_ mistaken)
    exact fun c first => (Option.some_inj.1 first).symm
  · exact ⟨placed.tracks.weaken placed.start_le, Nat.le_add_right _ _, fun _ => Mode.noConfusion⟩
  · rintro ⟨_, failed⟩
    cases failed
  · rw [Text.utf8Length_append _ ['<'], ← offsetEq]
    rfl
  · rw [sourceEq, List.append_cons]

theorem Piece.eq_element {first : Piece} {text : List Char} {quote : Option Char}
    (behindEq : first.behind text = .element quote) (opens : first.Opens text) :
    first = .element none := by
  cases first with
  | element begun => rw [opens.1]
  | closing | instruction | comment | cdata | doctype =>
      rw [Piece.behind_eq fun _ => rfl] at behindEq
      cases behindEq

private theorem Onward.offset_behind
    (onward : scanner.Onward extended source earlier read pending shown (c :: rest)) :
    scanner.offset + c.utf8Size = utf8Length (read ++ (pending ++ [c])) := by
  rw [← List.append_assoc, Text.utf8Length_append _ [c], ← onward.offset_eq]
  rfl

private theorem Onward.source_behind
    (onward : scanner.Onward extended source earlier read pending shown (c :: rest)) :
    source = read ++ (pending ++ [c]) ++ [] ++ rest := by
  rw [onward.source_eq]
  simp only [List.append_assoc]
  rfl

private theorem Onward.crosses_behind
    (onward : scanner.Onward extended source earlier read pending shown (c :: rest))
    (next : List Char) : Crosses extended read (earlier ++ shown) ((pending ++ [c]) ++ next) := by
  rw [List.append_assoc]
  exact onward.explains.reads (c :: next)

/-! ### Behind wrong attributes -/

section Tags

variable {quote : Option Char} {taken : List Char} {error : MarkupError}
  (onward : scanner.Onward extended source earlier read pending shown ('>' :: rest))
  (modeEq : scanner.mode = .inside (.element quote) taken)
  (accepts : (Piece.element quote).endsAfter taken = true)

include onward modeEq accepts in
private theorem Onward.wholeTag :
    pending ++ ['>'] = '<' :: (taken.reverse ++ ['>']) ∧
      (Piece.element none).Opens taken.reverse ∧
      ∀ unread, (Piece.element none).Stops taken.reverse unread ['>'] := by
  have isPending := onward.explains.pending
  rw [modeEq] at isPending
  obtain ⟨first, pendingEq, opens, _, behindEq, goesOn⟩ := isPending
  obtain rfl := Piece.eq_element behindEq opens
  refine ⟨?_, opens, fun unread => .sign goesOn ?_⟩
  · rw [pendingEq]
    rfl
  · rw [behindEq, List.reverse_reverse]
    exact accepts

variable (mistaken : tagAttributes scanner.extended (tagBody taken.reverse) = .error error)

include onward modeEq accepts mistaken in
private theorem Onward.passOpenTag (isOpen : taken.reverse.getLast? ≠ some '/') :
    (scanner.passMistake '>').Onward extended source (earlier ++ shown) (read ++ (pending ++ ['>'])) []
      [] rest := by
  obtain ⟨wholeEq, opens, stops⟩ := onward.wholeTag modeEq accepts
  have bodyEq : tagBody taken.reverse = taken.reverse := tagBody_of_open isOpen
  have passedEq : scanner.passMistake '>' =
      ({ scanner with offset := scanner.offset + '>'.utf8Size, emitted := []
                      opened := tagName taken.reverse :: scanner.opened }).beginText := by
    simp only [Scanner.passMistake, modeEq, passTag, if_neg isOpen, bodyEq]
  rw [bodyEq, onward.explains.extended_eq] at mistaken
  rw [passedEq]
  refine ⟨⟨onward.explains.extended_eq, ?_, rfl, ⟨rfl, List.not_mem_nil⟩,
    fun _ => onward.offset_behind⟩, ?_, ?_, ?_, onward.source_behind⟩
  · intro next
    have lapse : Lapse extended next (pending ++ ['>']) [] := by
      rw [wholeEq]
      exact .opening opens (stops next) isOpen mistaken
    exact .lapse (onward.crosses_behind next) lapse
  · refine .beginText (onward.placed.tracks.weaken ?_)
    exact Nat.le_trans onward.placed.start_le (Nat.le_add_right _ _)
  · rintro ⟨_, failed⟩
    cases failed
  · rw [List.append_nil]
    exact onward.offset_behind

include onward modeEq accepts mistaken in
/-- An empty tag leaves the end tag that it stands for. -/
private theorem Onward.passEmptyTag (isEmpty : taken.reverse.getLast? = some '/') :
    ∃ shown', (scanner.passMistake '>').Onward extended source (earlier ++ shown)
      (read ++ (pending ++ ['>'])) [] shown' rest := by
  obtain ⟨wholeEq, opens, stops⟩ := onward.wholeTag modeEq accepts
  obtain ⟨inner, textEq⟩ := List.getLast?_eq_some_iff.1 isEmpty
  have bodyEq : tagBody taken.reverse = inner := by
    rw [textEq, tagBody_concat]
  have passedEq : scanner.passMistake '>' =
      (({ scanner with offset := scanner.offset + '>'.utf8Size, emitted := [] }).emit
        (.closing (tagName inner)) (scanner.offset + '>'.utf8Size)).beginText := by
    simp only [Scanner.passMistake, modeEq, passTag, if_pos isEmpty, bodyEq]
  have isPrefix : read ++ (pending ++ ['>']) <+: source := by
    rw [onward.source_behind, List.append_nil]
    exact List.prefix_append _ _
  have startLe : scanner.start ≤ utf8Length (read ++ (pending ++ ['>'])) := by
    rw [onward.explains.start_eq onward.alive, Text.utf8Length_append]
    exact Nat.le_add_right _ _
  have emitted := @placed_emit source
    { scanner with offset := scanner.offset + '>'.utf8Size, emitted := [] } _ onward.placed.tracks _
    isPrefix startLe (.closing (tagName inner))
  rw [← onward.offset_behind] at emitted startLe
  rw [bodyEq, onward.explains.extended_eq] at mistaken
  rw [passedEq]
  refine ⟨[(.closing (tagName inner), read ++ (pending ++ ['>']))], ⟨onward.explains.extended_eq,
    ?_, emitted, ⟨rfl, List.not_mem_nil⟩, fun _ => onward.offset_behind⟩, ?_, ?_, ?_,
    onward.source_behind⟩
  · intro next
    have lapse : Lapse extended next (pending ++ ['>'])
        [(.closing (tagName inner), pending ++ ['>'])] := by
      rw [textEq] at opens stops
      rw [wholeEq, textEq, List.append_assoc]
      exact .empty opens (stops next) mistaken
    exact .lapse (onward.crosses_behind next) lapse
  · exact .beginText (onward.placed.tracks.advance startLe)
  · rintro ⟨_, failed⟩
    cases failed
  · rw [List.append_nil]
    exact onward.offset_behind

end Tags

theorem Onward.passMistake {error : MarkupError}
    (onward : scanner.Onward extended source earlier read pending shown (c :: rest))
    (stumbles : scanner.Stumbles c error) :
    ∃ read' pending' shown', (scanner.passMistake c).Onward extended source (earlier ++ shown) read'
      pending' shown' rest := by
  cases stumbles with
  | text modeEq filled mistaken => exact ⟨_, _, _, onward.passText modeEq filled mistaken⟩
  | @tag _ taken _ modeEq accepts mistaken =>
      by_cases isEmpty : taken.reverse.getLast? = some '/'
      · obtain ⟨shown', passed⟩ := onward.passEmptyTag modeEq accepts mistaken isEmpty
        exact ⟨_, _, _, passed⟩
      · exact ⟨_, _, _, onward.passOpenTag modeEq accepts mistaken isEmpty⟩

/-! ### Whole documents -/

def allPlaced (stream : TokenStream) (beyond : List Stretch) : List (TokenKind × Position) :=
  (stream.tokens ++ beyond.flatMap (·.stream.tokens)).map fun token => (token.kind, token.position)

private theorem allPlaced_ended (scanner : Scanner) (ending : Ending) (stretch : Stretch)
    (beyond : List Stretch) :
    allPlaced (scanner.ended ending) (stretch :: beyond) =
      scanner.placed ++ allPlaced stretch.stream beyond := by
  rw [allPlaced, List.flatMap_cons, List.map_append]
  rfl

/-- Only a mistake that cannot be passed leaves something unread but a `<` that nothing follows. -/
def EndsAll (stream : TokenStream) (beyond : List Stretch) (unread : List Char) : Prop :=
  (∃ error, .failed error ∈ stream.ending :: beyond.map (·.stream.ending) ∧
    error.canBePassed = false) ∨ unread = [] ∨ unread = ['<']

theorem beyond_of_failed {error : MarkupError} (failed : (scanner.step c).mode = .failed error)
    (canBePassed : error.canBePassed = true) :
    scanner.beyond (c :: rest) =
      ⟨scanner.glimpse error, (rest.foldl Scanner.step (scanner.passMistake c)).finish⟩ ::
        (scanner.passMistake c).beyond rest := by
  simp only [beyond, failed, canBePassed, if_true]

theorem beyond_of_alive (alive : ¬ (scanner.step c).Failed) :
    scanner.beyond (c :: rest) = (scanner.step c).beyond rest := by
  rw [beyond]
  split
  · rename_i error failed
    exact absurd ⟨error, failed⟩ alive
  · rfl

theorem finish_of_failed {error : MarkupError} (failed : scanner.mode = .failed error) :
    scanner.finish = scanner.ended (.failed error) := by
  simp only [finish, failed]

theorem Onward.crosses_nil
    (onward : scanner.Onward extended source earlier read pending shown []) :
    ∃ read' unread shown', source = read' ++ unread ∧
      Crosses extended read' (earlier ++ shown') unread ∧
      allPlaced scanner.finish (scanner.beyond []) = places shown' ∧
      EndsAll scanner.finish (scanner.beyond []) unread := by
  obtain ⟨explains, placed, alive, offsetEq, sourceEq⟩ := id onward
  rw [List.append_nil] at sourceEq
  rw [sourceEq]
  cases endingEq : scanner.finish.ending with
  | finished first again encoding =>
      obtain ⟨read', unread, shown', charsEq, crosses, placedEq, ends⟩ := explains.finishes
        (continues_behind extended earlier) placed (fun _ => offsetEq) onward.isPrefix
      have nothing : scanner.beyond [] = [] := by simp only [beyond, endingEq]
      rw [nothing]
      refine ⟨read', unread, shown', charsEq, crosses, ?_, ?_⟩
      · rw [allPlaced, List.flatMap_nil, List.append_nil]
        exact placedEq
      · rw [endingEq] at ends
        rcases ends with ⟨_, impossible⟩ | ends
        · cases impossible
        · exact .inr ends
  | failed error =>
      have noTokens : scanner.beyond [] =
          [⟨scanner.glimpse error, [], (scanner.finishBehind error).ending⟩] := by
        simp only [beyond, endingEq]
      have sameTokens : allPlaced scanner.finish (scanner.beyond []) =
          scanner.finish.tokens.map fun token => (token.kind, token.position) := by
        rw [allPlaced, noTokens]
        simp only [List.flatMap_cons, List.flatMap_nil, List.append_nil]
      rw [sameTokens]
      by_cases canBePassed : error.canBePassed = true
      · obtain ⟨taken, mistake, modeEq, filled, mistaken⟩ := finish_stumbles alive endingEq canBePassed
        have isPending := explains.pending
        rw [modeEq] at isPending
        obtain ⟨rfl, noSign⟩ := isPending
        have tokensEq : scanner.finish.tokens = scanner.emitted.reverse := by
          simp only [finish, modeEq, finishedAt_tokens, endText, List.isEmpty_iff, filled, mistaken,
            if_false, fail]
        have filled : taken.reverse ≠ [] := fun none => filled (List.reverse_eq_nil_iff.1 none)
        rw [explains.extended_eq] at mistaken
        refine ⟨read ++ taken.reverse, [], shown, (List.append_nil _).symm, ?_, ?_, .inr (.inl rfl)⟩
        · have maximal (c : Char) (isNext : ([] : List Char).head? = some c) : c = '<' := by
            cases isNext
          have crosses := Crosses.lapse (explains.reads []) (.text filled noSign maximal mistaken)
          rwa [Shown.behind, List.map_nil, List.append_nil] at crosses
        · rw [tokensEq]
          exact explains.placed_eq
      · obtain ⟨read', unread, shown', charsEq, crosses, placedEq, _⟩ := explains.finishes
          (continues_behind extended earlier) placed (fun _ => offsetEq) onward.isPrefix
        refine ⟨read', unread, shown', charsEq, crosses, placedEq, .inl ⟨error, ?_, ?_⟩⟩
        · rw [endingEq]
          exact List.mem_cons_self
        · exact Bool.eq_false_iff.2 canBePassed

theorem Onward.crosses {chars : List Char}
    (onward : scanner.Onward extended source earlier read pending shown chars) :
    ∃ read' unread shown', source = read' ++ unread ∧
      Crosses extended read' (earlier ++ shown') unread ∧
      allPlaced (chars.foldl Scanner.step scanner).finish (scanner.beyond chars) = places shown' ∧
      EndsAll (chars.foldl Scanner.step scanner).finish (scanner.beyond chars) unread := by
  induction chars generalizing scanner earlier read pending shown with
  | nil => exact onward.crosses_nil
  | cons c rest ih =>
      by_cases alive : (scanner.step c).Failed
      · obtain ⟨error, failed⟩ := alive
        have finishEq : ((c :: rest).foldl Scanner.step scanner).finish =
            (scanner.step c).ended (.failed error) := by
          rw [List.foldl_cons, foldl_step_of_failed ⟨error, failed⟩, finish_of_failed failed]
        rw [finishEq]
        cases canBePassed : error.canBePassed with
        | true =>
            have stumbles := stumbles_of_step onward.alive failed canBePassed
            obtain ⟨_, _, _, there⟩ := onward.passMistake stumbles
            obtain ⟨read', unread, shown', sourceEq, crosses, placedEq, ends⟩ := ih there
            rw [beyond_of_failed failed canBePassed]
            rw [List.append_assoc] at crosses
            refine ⟨read', unread, shown ++ shown', sourceEq, crosses, ?_, ?_⟩
            · rw [allPlaced_ended, placedEq, places_append, ← onward.explains.placed_eq,
                Scanner.placed, stumbles.emitted_eq]
              rfl
            · refine ends.imp_left ?_
              rintro ⟨last, member, cannot⟩
              exact ⟨last, List.mem_cons_of_mem _ member, cannot⟩
        | false =>
            have isPrefix : read ++ pending ++ [c] <+: source := by
              rw [onward.source_eq]
              exact ⟨rest, List.append_assoc _ _ _⟩
            obtain ⟨read', pending', shown', charsEq, explains⟩ := onward.explains.explained_step
              (continues_behind extended earlier) onward.placed onward.alive onward.offset_eq isPrefix
            have beyondEq : scanner.beyond (c :: rest) = [⟨scanner.glimpse error, [],
                ((scanner.step c).finishAt ((scanner.step c).reached error)).ending⟩] := by
              simp only [beyond, failed, canBePassed, Bool.false_eq_true, if_false]
            refine ⟨read', pending' ++ rest, shown', ?_, explains.reads rest, ?_,
              .inl ⟨error, List.mem_cons_self, canBePassed⟩⟩
            · rw [onward.source_eq, List.append_cons _ c, charsEq, List.append_assoc]
            · rw [beyondEq, allPlaced_ended, ← explains.placed_eq]
              exact List.append_nil _
      · obtain ⟨read', pending', shown', there⟩ := onward.step alive
        rw [beyond_of_alive alive, List.foldl_cons]
        exact ih there

/-! ### Every mistake has something behind it -/

/-- The ending is the end of the document, or there is a stretch behind it, and so on. -/
inductive Chained : Ending → List Stretch → Prop
  | finished (first again : Position) (encoding : String) :
      Chained (.finished first again encoding) []
  | failed {stretch : Stretch} {beyond : List Stretch} (error : MarkupError)
      (chained : Chained stretch.stream.ending beyond) : Chained (.failed error) (stretch :: beyond)

private theorem passMistake_alive (scanner : Scanner) (c : Char) : ¬
    (scanner.passMistake c).Failed := by
  rintro ⟨error, failed⟩
  unfold passMistake at failed
  split at failed
  · simp only [passTag] at failed
    split at failed <;> cases failed
  · cases failed

private theorem chained_beyond (chars : List Char) {scanner : Scanner} (alive : ¬ scanner.Failed) :
    Chained (chars.foldl Scanner.step scanner).finish.ending (scanner.beyond chars) := by
  induction chars generalizing scanner with
  | nil =>
      rw [List.foldl_nil, beyond]
      cases scanner.finish.ending with
      | finished first again encoding => exact .finished first again encoding
      | failed error => exact .failed error (.finished _ _ _)
  | cons c rest ih =>
      by_cases aliveThere : (scanner.step c).Failed
      · obtain ⟨error, failed⟩ := aliveThere
        rw [List.foldl_cons, foldl_step_of_failed ⟨error, failed⟩, finish_of_failed failed]
        cases canBePassed : error.canBePassed with
        | true =>
            rw [beyond_of_failed failed canBePassed]
            exact .failed error (ih (passMistake_alive scanner c))
        | false =>
            simp only [beyond, failed, canBePassed, Bool.false_eq_true, if_false]
            exact .failed error (.finished _ _ _)
      · rw [beyond_of_alive aliveThere]
        exact ih aliveThere

end Scanner

theorem stretches_chained (extended : Bool) (document : String) :
    Scanner.Chained (tokenize extended document).ending (stretches extended document) := by
  apply Scanner.chained_beyond
  rintro ⟨_, failed⟩
  cases failed

/-- All tokens of a document are those of its passages, from its beginning to its end or to a mistake
that cannot be passed. -/
theorem stretches_cross (extended : Bool) {document : String}
    (noMark : withoutMark document.toList = document.toList) :
    ∃ read unread shown, document.toList = read ++ unread ∧ Crosses extended read shown unread ∧
      Scanner.allPlaced (tokenize extended document) (stretches extended document) =
        Scanner.places shown ∧
      Scanner.EndsAll (tokenize extended document) (stretches extended document) unread := by
  have begins : (Scanner.ofSource extended document.toList).Onward extended document.toList [] [] [] []
      document.toList := by
    refine ⟨⟨rfl, .nothing, rfl, ⟨rfl, List.not_mem_nil⟩, fun _ => rfl⟩, .ofSource _ _, ?_, rfl, rfl⟩
    rintro ⟨_, failed⟩
    cases failed
  simp only [tokenize, stretches, noMark]
  exact begins.crosses

end Trellis.Markup
