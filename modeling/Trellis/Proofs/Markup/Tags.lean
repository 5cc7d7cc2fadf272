import Trellis.Proofs.Markup.AttributeRows
import Trellis.Proofs.Markup.Passages
import Trellis.Proofs.Markup.Texts

/-!
The scanner behind tags.

A tag ends at its first `>` outside of values.  Behind a start tag its element is open with the name
and the attributes in it, and an end tag closes the element whose name it has.  A text of a name and
a row of attributes is the text of a tag.
-/

namespace Trellis.Markup

open Text (utf8Length)

/-! ### Inside a piece -/

namespace Scanner

variable {scanner : Scanner}

theorem foldl_goesOn {piece : Piece} {first more : List Char}
    (modeEq : scanner.mode = .inside (piece.behind first) first.reverse)
    (goesOn : piece.GoesOn (first ++ more)) :
    more.foldl step scanner =
      { scanner with mode := .inside (piece.behind (first ++ more)) (first ++ more).reverse
                     offset := scanner.offset + utf8Length more } := by
  induction more generalizing scanner first with
  | nil =>
      rw [List.append_nil, ← modeEq]
      rfl
  | cons c more ih =>
      have noEnd : ¬ (c = '>' && (piece.behind first).endsAfter first.reverse) = true := by
        intro ends
        rw [Bool.and_eq_true, decide_eq_true_iff] at ends
        have refuses := goesOn first more (by rw [ends.1])
        rw [refuses] at ends
        cases ends.2
      have stepEq : scanner.step c =
          { scanner with mode := .inside (piece.behind (first ++ [c])) (first ++ [c]).reverse
                         offset := scanner.offset + c.utf8Size } := by
        simp only [step, modeEq, stepInside]
        rw [if_neg noEnd]
        simp only [List.reverse_append, List.reverse_cons, List.reverse_nil, List.nil_append,
          List.singleton_append, Piece.behind, List.foldl_append, List.foldl_cons, List.foldl_nil]
      have split : first ++ c :: more = first ++ [c] ++ more := by
        rw [List.append_assoc]
        rfl
      rw [split] at goesOn ⊢
      rw [List.foldl_cons, stepEq, ih rfl goesOn, Text.utf8Length_cons, Nat.add_assoc]

theorem step_accepts {piece : Piece} {text : List Char}
    (modeEq : scanner.mode = .inside (piece.behind text) text.reverse)
    (accepts : (piece.behind text).endsAfter text.reverse = true) :
    scanner.step '>' =
      ({ scanner with offset := scanner.offset + '>'.utf8Size }).endPiece (piece.behind text) text := by
  simp only [step, modeEq, stepInside, accepts, decide_true, Bool.and_self, if_true,
    List.reverse_reverse]

end Scanner

theorem Piece.goesOn_of_noEnd {piece : Piece} {text : List Char} (noEnd : '>' ∉ text) :
    piece.GoesOn text := by
  intro before after split
  apply absurd _ noEnd
  rw [split]
  exact List.mem_append_right _ List.mem_cons_self

/-! ### Tags -/

/-- The text of a start tag, between its signs: it has a name and perhaps attributes, and no value is
left open. -/
structure IsTag (text : String) : Prop where
  opens : text.toList ≠ [] ∧ (Piece.element none).Opens text.toList
  goesOn : (Piece.element none).GoesOn text.toList
  settled : (Piece.element none).behind text.toList = .element none
  open_ : text.toList.getLast? ≠ some '/'
  /-- The name can stand in an end tag. -/
  named : '>' ∉ (tagName text.toList).toList

theorem IsTag.chars {text : String} (isTag : IsTag text) :
    ∃ first rest, text.toList = first :: rest ∧ first ∉ ['/', '?', '!'] ∧ first ≠ '>' := by
  obtain ⟨filled, _, starts⟩ := isTag.opens
  have goesOn := isTag.goesOn
  cases charsEq : text.toList with
  | nil => exact absurd charsEq filled
  | cons first rest =>
      rw [charsEq] at starts goesOn
      refine ⟨first, rest, rfl, starts first rfl, ?_⟩
      intro isEnd
      rw [isEnd] at goesOn
      cases goesOn [] rest rfl

namespace Scanner

variable {scanner : Scanner}

theorem foldl_tag {text : String} (isTag : IsTag text) (modeEq : scanner.mode = .tag) :
    text.toList.foldl step scanner =
      { scanner with mode := .inside (.element none) text.toList.reverse
                     offset := scanner.offset + utf8Length text.toList } := by
  obtain ⟨first, rest, charsEq, starts, noEnd⟩ := isTag.chars
  have goesOn := isTag.goesOn
  have settled := isTag.settled
  simp only [List.mem_cons, List.not_mem_nil, or_false, not_or] at starts
  obtain ⟨noSlash, noQuestion, noBang⟩ := starts
  rw [charsEq] at goesOn settled ⊢
  have begun : scanner.step first =
      { scanner with mode := .inside ((Piece.element none).behind [first]) [first].reverse
                     offset := scanner.offset + first.utf8Size } := by
    simp only [step, modeEq, if_neg noSlash, if_neg noQuestion, if_neg noBang, stepInside,
      decide_eq_false noEnd, Bool.false_and, Bool.false_eq_true, if_false]
    rfl
  have inside := @foldl_goesOn (scanner.step first) (.element none) [first] rest (by rw [begun]) goesOn
  rw [List.singleton_append, settled] at inside
  rw [List.foldl_cons, inside, begun, Text.utf8Length_cons, Nat.add_assoc]

variable {extended : Bool} {opened : List String} {kinds : List TokenKind}

theorem Stands.emit {mode : Mode} (stands : scanner.Stands extended opened kinds mode)
    (kind : TokenKind) (mark : Nat) :
    (scanner.emit kind mark).Stands extended opened (kinds ++ [kind]) mode where
  extended_eq := stands.extended_eq
  opened_eq := stands.opened_eq
  shown_eq := by rw [shown_emit, stands.shown_eq]
  mode_eq := stands.mode_eq

theorem Stands.beginText {mode : Mode} (stands : scanner.Stands extended opened kinds mode) :
    scanner.beginText.Stands extended opened kinds (.text []) :=
  stands.turn (.text []) scanner.offset scanner.offset

theorem Stands.enter {mode : Mode} (stands : scanner.Stands extended opened kinds mode)
    (name : String) :
    Stands extended (name :: opened) kinds mode { scanner with opened := name :: scanner.opened } :=
  ⟨stands.extended_eq, congrArg (name :: ·) stands.opened_eq, stands.shown_eq, stands.mode_eq⟩

theorem Stands.step_sign_nil (stands : scanner.Stands extended opened kinds (.text [])) :
    (scanner.step '<').Stands extended opened kinds .tag := by
  rw [Scanner.step_sign_nil stands.mode_eq]
  exact stands.turn _ _ _

theorem closingName_of_solid {name : List Char} (solid : ∀ c ∈ name, isTagBlank c = false) :
    closingName name = name := by
  have noBlank : name.reverse.dropWhile isTagBlank = name.reverse := by
    cases reversed : name.reverse with
    | nil => rfl
    | cons last rest =>
        have member : last ∈ name := by
          rw [← List.mem_reverse, reversed]
          exact List.mem_cons_self
        rw [List.dropWhile_cons, solid last member]
        rfl
  unfold closingName
  rw [noBlank, List.reverse_reverse]
  exact ite_self name

theorem closingName_tagName (text : List Char) :
    closingName (tagName text).toList = (tagName text).toList := by
  rw [tagName, String.toList_ofList]
  apply closingName_of_solid
  intro c member
  simpa using List.all_eq_true.1 List.all_takeWhile c member

theorem Stands.endTag {name : String} (stands : scanner.Stands extended (name :: opened) kinds .tag)
    (own : closingName name.toList = name.toList) (noEnd : '>' ∉ name.toList) :
    (('/' :: (name.toList ++ ['>'])).foldl step scanner).Stands extended opened
      (kinds ++ [.closing name]) (.text []) := by
  have slash : (scanner.step '/').Stands extended (name :: opened) kinds (.inside .closing []) := by
    simp only [step, stands.mode_eq, if_true]
    exact stands.turn _ _ _
  have inside := @foldl_goesOn (scanner.step '/') .closing [] name.toList slash.mode_eq
    (Piece.goesOn_of_noEnd noEnd)
  rw [Piece.behind_eq fun _ => rfl, List.nil_append] at inside
  have goesOn : (name.toList.foldl step (scanner.step '/')).Stands extended (name :: opened) kinds
      (.inside .closing name.toList.reverse) := by
    rw [inside]
    exact slash.turn _ _ _
  rw [List.foldl_cons, List.foldl_append]
  generalize name.toList.foldl step (scanner.step '/') = reached at goesOn
  have ended : reached.step '>' =
      ({ reached with offset := reached.offset + '>'.utf8Size }).endClosing name.toList := by
    simp only [step, goesOn.mode_eq, stepInside, List.reverse_reverse]
    rfl
  change (reached.step '>').Stands extended opened (kinds ++ [.closing name]) (.text [])
  rw [ended, endClosing]
  simp only [goesOn.opened_eq, own, String.ofList_toList, if_true]
  have popped : Stands extended opened kinds (.inside .closing name.toList.reverse)
      { reached with offset := reached.offset + '>'.utf8Size, opened } :=
    ⟨goesOn.extended_eq, rfl, goesOn.shown_eq, goesOn.mode_eq⟩
  exact (popped.emit _ _).beginText

/-- Behind a start tag: its element is open, or there is a mistake among its attributes. -/
theorem Stands.startTag {text : String} (isTag : IsTag text)
    (stands : scanner.Stands extended opened kinds .tag) :
    match tagAttributes extended text.toList with
    | .ok attributes => ((text.toList ++ ['>']).foldl step scanner).Stands extended
        (tagName text.toList :: opened) (kinds ++ [.opening (tagName text.toList) attributes])
        (.text [])
    | .error error => ((text.toList ++ ['>']).foldl step scanner).Stands extended opened kinds
        (.failed error) := by
  rw [List.foldl_append, foldl_tag isTag stands.mode_eq, List.foldl_cons, List.foldl_nil]
  generalize scanner.offset + utf8Length text.toList = offset
  have ended : ({ scanner with mode := .inside (.element none) text.toList.reverse, offset }).step
      '>' =
      ({ scanner with mode := .inside (.element none) text.toList.reverse
                      offset := offset + '>'.utf8Size }).endElement text.toList.reverse.reverse := by
    rfl
  have inside := stands.turn (.inside (.element none) text.toList.reverse) (offset + '>'.utf8Size)
    scanner.start
  rw [ended, endElement_eq, List.reverse_reverse, tagBody_of_open isTag.open_]
  simp only [if_neg isTag.open_]
  rw [← stands.extended_eq] at inside ⊢
  cases tagAttributes scanner.extended text.toList with
  | error error => exact inside.turn _ _ _
  | ok attributes =>
      have emitted := inside.emit (.opening (tagName text.toList) attributes) scanner.start
      exact (emitted.enter _).beginText

end Scanner

/-! ### Text inside a tag -/

structure Plain (text : List Char) : Prop where
  goesOn : (Piece.element none).GoesOn text
  settled : (Piece.element none).behind text = .element none

theorem Plain.append {left right : List Char} (plain : Plain left) (plain' : Plain right) :
    Plain (left ++ right) := by
  have behindEq (text : List Char) :
      (Piece.element none).behind (left ++ text) = (Piece.element none).behind text := by
    have settled := plain.settled
    unfold Piece.behind at settled ⊢
    rw [List.foldl_append, settled]
  constructor
  · intro before after split
    rcases List.append_eq_append_iff.1 split with ⟨tail, rfl, rightEq⟩ | ⟨tail, leftEq, rightEq⟩
    · have refuses := plain'.goesOn tail after rightEq
      rw [behindEq]
      obtain ⟨quote, quoteEq⟩ := Piece.behind_element none tail
      rw [quoteEq] at refuses ⊢
      exact refuses
    · cases tail with
      | nil =>
          rw [List.append_nil] at leftEq
          have refuses := plain'.goesOn [] after rightEq.symm
          cases refuses
      | cons c tail =>
          rw [List.cons_append, List.cons.injEq] at rightEq
          rw [← rightEq.1] at leftEq
          exact plain.goesOn before tail leftEq
  · rw [behindEq]
    exact plain'.settled

theorem Plain.of_solid {text : List Char} (solid : ∀ c ∈ text, c ∉ ['>', '"', '\'']) : Plain text := by
  constructor
  · apply Piece.goesOn_of_noEnd
    intro member
    exact solid '>' member List.mem_cons_self
  · unfold Piece.behind
    induction text with
    | nil => rfl
    | cons c rest ih =>
        have noQuote := solid c List.mem_cons_self
        simp only [List.mem_cons, List.not_mem_nil, or_false, not_or] at noQuote
        have step : (Piece.element none).after c = .element none := by
          simp [Piece.after, noQuote.2]
        rw [List.foldl_cons, step]
        exact ih fun d member => solid d (List.mem_cons_of_mem c member)

theorem Plain.quoted {quote : Char} (isQuote : quote ∈ ['"', '\'']) {value : List Char}
    (unquoted : ∀ c ∈ value, c ≠ quote) : Plain (quote :: (value ++ [quote])) := by
  have opened : (Piece.element none).after quote = .element (some quote) := by
    simp only [List.mem_cons, List.not_mem_nil, or_false] at isQuote
    simp [Piece.after, isQuote]
  have open_ : (Piece.element none).GoesOn (quote :: value) ∧
      (Piece.element none).behind (quote :: value) = .element (some quote) := by
    induction value using List.reverseRecOn with
    | nil =>
        constructor
        · apply Piece.goesOn_of_noEnd
          intro member
          rw [← List.mem_singleton.1 member] at isQuote
          revert isQuote
          decide
        · exact opened
    | append_singleton value c ih =>
        obtain ⟨goesOn, behindEq⟩ := ih fun d member => unquoted d (List.mem_append_left _ member)
        have other := unquoted c (List.mem_append_right _ List.mem_cons_self)
        rw [← List.cons_append]
        constructor
        · apply goesOn.snoc
          intro _
          rw [behindEq]
          rfl
        · unfold Piece.behind at behindEq ⊢
          rw [List.foldl_append, behindEq]
          simp [Piece.after, other]
  obtain ⟨goesOn, behindEq⟩ := open_
  rw [← List.cons_append]
  constructor
  · apply goesOn.snoc
    intro _
    rw [behindEq]
    rfl
  · unfold Piece.behind at behindEq ⊢
    rw [List.foldl_append, behindEq]
    simp [Piece.after]

private theorem not_special_of_blank {c : Char} (blank : isTagBlank c = true) :
    c ∉ ['/', '>', '"', '\''] := by
  simp only [isTagBlank, Bool.or_eq_true, decide_eq_true_eq] at blank
  rcases blank with ((rfl | rfl) | rfl) | rfl <;> decide

theorem WrittenAttribute.WellFormed.plain {written : WrittenAttribute}
    (wellFormed : written.WellFormed) : Plain written.text.toList := by
  have blank {chars : List Char} (blanks : ∀ c ∈ chars, isTagBlank c = true) : Plain chars := by
    apply Plain.of_solid
    intro c member special
    exact not_special_of_blank (blanks c member) (List.mem_cons_of_mem _ special)
  have name : Plain written.name.toList := by
    apply Plain.of_solid
    intro c member special
    exact (wellFormed.name c member).2 (List.mem_cons_of_mem _ special)
  have equals : Plain ['='] := .of_solid (by simp)
  rw [written.toList_text]
  exact (blank wellFormed.before).append (name.append ((blank wellFormed.left).append
    (equals.append ((blank wellFormed.right).append (.quoted wellFormed.quote wellFormed.value)))))

/-- The name of a tag: no blank ends it, and it does not begin as another kind of markup does. -/
structure IsTagName (name : String) : Prop where
  filled : name.toList ≠ []
  starts : ∀ c, name.toList.head? = some c → c ∉ ['?', '!']
  solid : ∀ c ∈ name.toList, isTagBlank c = false ∧ c ∉ ['/', '>', '"', '\'']

def tagText (name : String) (row : List WrittenAttribute) (tail : String) : String :=
  name ++ (attributesText row ++ tail)

theorem toList_tagText (name : String) (row : List WrittenAttribute) (tail : String) :
    (tagText name row tail).toList =
      name.toList ++ ((attributesText row).toList ++ tail.toList) := by
  rw [tagText, String.toList_append, String.toList_append]

section TagTexts

variable {name tail : String} {row : List WrittenAttribute} (isTagName : IsTagName name)
variable (wellFormed : ∀ written ∈ row, written.WellFormed)
variable (blank : ∀ c ∈ tail.toList, isTagBlank c = true)
include wellFormed

private theorem plain_attributesText : Plain (attributesText row).toList := by
  induction row with
  | nil => exact .of_solid nofun
  | cons written row ih =>
      rw [attributesText, String.toList_append]
      exact (wellFormed written List.mem_cons_self).plain.append
        (ih fun later member => wellFormed later (List.mem_cons_of_mem _ member))

private theorem head?_attributesText {c : Char} (first : (attributesText row).toList.head? = some c) :
    isTagBlank c = true := by
  cases row with
  | nil => cases first
  | cons written row =>
      obtain ⟨before_ne, before, _⟩ := wellFormed written List.mem_cons_self
      rw [attributesText, String.toList_append, written.toList_text, List.append_assoc,
        List.head?_append_of_ne_nil _ before_ne] at first
      exact before c (List.mem_of_mem_head? first)

private theorem getLast?_attributesText : (attributesText row).toList.getLast? ≠ some '/' := by
  induction row with
  | nil => exact nofun
  | cons written row ih =>
      have later := ih fun later member => wellFormed later (List.mem_cons_of_mem _ member)
      rw [attributesText, String.toList_append, List.getLast?_append]
      intro slash
      rcases Option.or_eq_some_iff.1 slash with inRow | ⟨_, inAttribute⟩
      · exact later inRow
      · have quote := (wellFormed written List.mem_cons_self).quote
        have endsInQuote : written.text.toList.getLast? = some written.quote := by
          rw [WrittenAttribute.text, String.toList_append, String.toList_singleton,
            List.getLast?_concat]
        rw [endsInQuote, Option.some.injEq] at inAttribute
        rw [inAttribute] at quote
        revert quote
        decide

include isTagName blank

private theorem takeWhile_tagText :
    (tagText name row tail).toList.takeWhile (fun c => !isTagBlank c) = name.toList := by
  have stops : ((attributesText row).toList ++ tail.toList).takeWhile (fun c => !isTagBlank c) = [] := by
    cases charsEq : (attributesText row).toList ++ tail.toList with
    | nil => rfl
    | cons c rest =>
        have isBlank : isTagBlank c = true := by
          have first : ((attributesText row).toList ++ tail.toList).head? = some c := by
            rw [charsEq]
            rfl
          rw [List.head?_append] at first
          rcases Option.or_eq_some_iff.1 first with inRow | ⟨_, inTail⟩
          · exact head?_attributesText wellFormed inRow
          · exact blank c (List.mem_of_mem_head? inTail)
        simp [isBlank]
  rw [toList_tagText, List.takeWhile_append_of_pos, stops, List.append_nil]
  intro c member
  rw [(isTagName.solid c member).1]
  rfl

theorem tagName_tagText : tagName (tagText name row tail).toList = name := by
  rw [tagName, takeWhile_tagText isTagName wellFormed blank, String.ofList_toList]

theorem tagAttributes_tagText (extended : Bool) :
    tagAttributes extended (tagText name row tail).toList =
      decodeAttributes extended (Text.utf8Length name.toList)
        ((attributesText row).toList ++ tail.toList) := by
  unfold tagAttributes
  simp only [takeWhile_tagText isTagName wellFormed blank]
  rw [toList_tagText, List.drop_left]

theorem isTag_tagText : IsTag (tagText name row tail) := by
  have textEq := toList_tagText
  have plain : Plain (tagText name row tail).toList := by
    rw [textEq]
    apply Plain.append
    · apply Plain.of_solid
      intro c member special
      exact (isTagName.solid c member).2 (List.mem_cons_of_mem _ special)
    · apply (plain_attributesText wellFormed).append
      apply Plain.of_solid
      intro c member special
      exact not_special_of_blank (blank c member) (List.mem_cons_of_mem _ special)
  refine ⟨⟨?_, rfl, ?_⟩, plain.goesOn, plain.settled, ?_, ?_⟩
  · rw [textEq]
    exact List.append_ne_nil_of_left_ne_nil isTagName.filled _
  · intro c first
    rw [textEq, List.head?_append_of_ne_nil _ isTagName.filled] at first
    rw [List.mem_cons, not_or]
    refine ⟨?_, isTagName.starts c first⟩
    rintro rfl
    exact (isTagName.solid '/' (List.mem_of_mem_head? first)).2 List.mem_cons_self
  · rw [textEq, List.getLast?_append, List.getLast?_append]
    intro slash
    rcases Option.or_eq_some_iff.1 slash with later | ⟨_, inName⟩
    · rcases Option.or_eq_some_iff.1 later with inTail | ⟨_, inRow⟩
      · exact not_special_of_blank (blank '/' (List.mem_of_getLast? inTail)) List.mem_cons_self
      · exact getLast?_attributesText wellFormed inRow
    · exact (isTagName.solid '/' (List.mem_of_getLast? inName)).2 List.mem_cons_self
  · rw [tagName_tagText isTagName wellFormed blank]
    intro member
    exact (isTagName.solid '>' member).2 (by decide)

end TagTexts

end Trellis.Markup
