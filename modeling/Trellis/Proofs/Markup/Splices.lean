import Trellis.Proofs.Markup.Edits
import Trellis.Proofs.Markup.Positions
import Trellis.Proofs.Markup.Texts
import Trellis.Text.Blank

/-!
Documents with something put in between the children of an element.

An element that is put into a run of text divides it, and text that is put in joins it.  The first
token of what is put in stands at a place that is known beforehand.  Everything else in the document
stays as it is, but for the positions behind.
-/

namespace Trellis.Markup

open Text (utf8Length)

/-! ### Contents with something put in -/

namespace Content

inductive Led : Option String → Content → Content → Prop
  | nothing (rest : Content) : Led none rest rest
  | text (position : Position) (text : String) (rest : Content) :
      Led (some text) rest (.text position text rest)

end Content

def Blank (text : Option String) : Prop :=
  ∀ content, text = some content → Text.isBlankText content = true

namespace Content

inductive PutsElement (tag : Tag) : Content → Content → Prop
  | divides {whole before after : Option String} {content content' inside middle rest rest' : Content}
      (led : Led whole rest content) (ledBefore : Led before (.element tag inside middle) content')
      (ledAfter : Led after rest' middle) (complete : inside.break? = none)
      (follows : rest.Follows rest') (blank : Blank whole → Blank before ∧ Blank after) :
      PutsElement tag content content'
  | broken (ending : Ending) (content : Content) : PutsElement tag (.broken ending) content

inductive PutsText (position : Position) : Content → Content → Prop
  | joins {whole : Option String} {content rest rest' : Content} {text : String}
      (led : Led whole rest content) (filled : Text.isBlankText text = false)
      (follows : rest.Follows rest') : PutsText position content (.text position text rest')
  | broken (ending : Ending) (content : Content) : PutsText position (.broken ending) content

theorem led_level (scanner : Scanner) (text : Option String) (ending : Ending) (more : List Token) :
    Led text (level ending more 0) (level ending (scanner.runTokens text ++ more) 0) := by
  cases text with
  | none => exact .nothing _
  | some content => exact .text _ _ _

theorem level_runTokens (scanner : Scanner) (text : Option String) (ending : Ending)
    (more : List Token) (depth : Nat) :
    level ending (scanner.runTokens text ++ more) (depth + 1) = level ending more (depth + 1) := by
  cases text <;> rfl

theorem level_element {opening closing : Token} {inner : List Token} {name closingName : String}
    {attributes : List (String × String)} (kind : opening.kind = .opening name attributes)
    (balanced : Balanced inner) (closingKind : closing.kind = .closing closingName) :
    ∃ inside, inside.break? = none ∧ ∀ ending more,
      level ending (opening :: (inner ++ closing :: more)) 0 =
        .element ⟨name, attributes, opening.position⟩ inside (level ending more 0) ∧
      ∀ depth, level ending (opening :: (inner ++ closing :: more)) (depth + 1) =
        level ending more (depth + 1) := by
  have spans := spans_of_balanced balanced closingKind (.finished ⟨1, 1⟩ ⟨1, 1⟩ "") []
  refine ⟨_, spans.break_eq_none, ?_⟩
  intro ending more
  have folded := ofTokens_of_spans spans ending more
  obtain ⟨insideEq, outerEq⟩ := ofTokens_eq_level ending (inner ++ closing :: more)
  obtain ⟨restEq, laterEq⟩ := ofTokens_eq_level ending more
  have behind (depth : Nat) :
      level ending (inner ++ closing :: more) (depth + 1) = level ending more depth := by
    rw [← outerEq, folded]
    cases depth with
    | zero => exact restEq
    | succ depth => exact laterEq depth
  constructor
  · simp only [level, kind]
    rw [behind, ← insideEq, folded]
  · intro depth
    simp only [level, kind]
    exact behind (depth + 1)

/-- The tokens from here on make contents that differ by the change, and the same contents further
out. -/
def ChangesHere (change : Content → Content → Prop) (later later' : List Token) : Prop :=
  ∀ ending ending', change (level ending later 0) (level ending' later' 0) ∧
    ∀ depth, (level ending later (depth + 1)).Follows (level ending' later' (depth + 1))

section Tokens

variable (scanner scanner' scannerBehind : Scanner) {more more' : List Token}
variable (kinds : more.map (·.kind) = more'.map (·.kind))
include kinds

private theorem changesHere_element {whole before after : Option String} {opening closing : Token}
    {inner : List Token} {name closingName : String} {attributes : List (String × String)}
    (kind : opening.kind = .opening name attributes) (balanced : Balanced inner)
    (closingKind : closing.kind = .closing closingName)
    (blank : Blank whole → Blank before ∧ Blank after) :
    ChangesHere (PutsElement ⟨name, attributes, opening.position⟩) (scanner.runTokens whole ++ more)
      (scanner'.runTokens before ++
        opening :: (inner ++ closing :: (scannerBehind.runTokens after ++ more'))) := by
  intro ending ending'
  have isPrefix : more.map (·.kind) <+: more'.map (·.kind) := kinds ▸ List.prefix_refl _
  obtain ⟨inside, complete, gives⟩ := level_element kind balanced closingKind
  obtain ⟨elementEq, behindEq⟩ := gives ending' (scannerBehind.runTokens after ++ more')
  constructor
  · have ledBefore := led_level scanner' before ending'
      (opening :: (inner ++ closing :: (scannerBehind.runTokens after ++ more')))
    rw [elementEq] at ledBefore
    exact .divides (led_level _ _ _ _) ledBefore (led_level _ _ _ _) complete
      (level_follows isPrefix 0) blank
  · intro depth
    rw [level_runTokens, level_runTokens, behindEq, level_runTokens]
    exact level_follows isPrefix (depth + 1)

private theorem changesHere_text {whole : Option String} {text : String}
    (filled : Text.isBlankText text = false) :
    ChangesHere (PutsText (scanner'.tracker.advance scanner'.start).position)
      (scanner.runTokens whole ++ more) (scanner'.runTokens (some text) ++ more') := by
  intro ending ending'
  have isPrefix : more.map (·.kind) <+: more'.map (·.kind) := kinds ▸ List.prefix_refl _
  constructor
  · exact .joins (led_level _ _ _ _) filled (level_follows isPrefix 0)
  · intro depth
    rw [level_runTokens, level_runTokens]
    exact level_follows isPrefix (depth + 1)

end Tokens

end Content

/-! ### Places -/

def scanned (extended : Bool) (text : String) : Scanner :=
  (withoutMark text.toList).foldl Scanner.step (Scanner.ofSource extended text.toList)

/-- A place between the children of an element: it comes behind `lead`, which ends with markup, and
behind a run of text that does not break off inside a reference.  The element is inside the
document's own, and the path names the elements from there on. -/
structure Gap (extended : Bool) (lead run : String) (path : List String) : Prop where
  mode_eq : (scanned extended lead).mode = .text []
  stands : StandsInside (scanned extended lead).emitted.reverse path
  noSign : ∀ c ∈ run.toList, c ≠ '<'
  decodes : ∃ content, decode extended run.toList = .ok content

def arrive (extended : Bool) (source : List Char) (lead : String) (text : List Char) : Scanner :=
  (withoutMark lead.toList ++ text).foldl Scanner.step (Scanner.ofSource extended source)

section Places

variable {extended : Bool} {lead run : String} {path : List String}

theorem Gap.lead_ne_nil (gap : Gap extended lead run path) : lead.toList ≠ [] := by
  intro empty
  have stands := gap.stands
  unfold scanned at stands
  rw [empty] at stands
  obtain ⟨preamble, root, inner, split, _⟩ := stands
  cases preamble <;> cases split

theorem withoutMark_append {chars : List Char} (filled : chars ≠ []) (rest : List Char) :
    withoutMark (chars ++ rest) = withoutMark chars ++ rest := by
  cases chars with
  | nil => exact absurd rfl filled
  | cons c chars =>
      simp only [List.cons_append, withoutMark]
      split
      · rfl
      · rfl

theorem Gap.tokenize_eq (gap : Gap extended lead run path) {document : String} {text rest : List Char}
    (split : document.toList = lead.toList ++ text ++ rest) :
    (tokenize extended document).tokens =
      (rest.foldl Scanner.step (arrive extended document.toList lead text)).finish.tokens := by
  unfold tokenize arrive
  simp only
  rw [← List.foldl_append, split, List.append_assoc, withoutMark_append gap.lead_ne_nil,
    List.append_assoc]

theorem stands_arrive (extended : Bool) (source : List Char) {front : String} {taken : List Char}
    (modeEq : (scanned extended front).mode = .text taken) :
    (arrive extended source front []).Stands extended (scanned extended front).opened
      (scanned extended front).shown (.text taken) := by
  rw [arrive, List.append_nil, ← modeEq]
  exact Scanner.stands_foldl extended front.toList source (withoutMark front.toList)

variable (gap : Gap extended lead run path) (source : List Char) {text : List Char}
variable (noSign : ∀ c ∈ text, c ≠ '<')
include gap noSign

theorem Gap.arrive_stands :
    (arrive extended source lead text).Stands extended (scanned extended lead).opened
      (scanned extended lead).shown (.text text.reverse) := by
  have here := (stands_arrive extended source gap.mode_eq).foldl_text noSign
  rwa [List.append_nil, arrive, List.append_nil, ← List.foldl_append] at here

theorem Gap.arrive_placed :
    Scanner.Placed source (arrive extended source lead text) ∧
      (arrive extended source lead text).start = utf8Length (withoutMark lead.toList) ∧
      (arrive extended source lead text).offset = utf8Length (withoutMark lead.toList ++ text) :=
  ⟨(Scanner.Placed.ofSource source extended).foldl_step _,
    Scanner.start_of_run (gap.arrive_stands source noSign).mode_eq⟩

omit noSign in
theorem Gap.stands_of_shown {scanner : Scanner}
    (shown : scanner.shown = (scanned extended lead).shown) :
    StandsInside scanner.emitted.reverse path :=
  gap.stands.congr shown.symm

end Places

/-! ### Elements -/

/-- The text is one element: it begins with a start tag of the name, and it ends with the end tag. -/
structure IsElement (extended : Bool) (name text : String) : Prop where
  begins : ∃ c rest, text.toList = '<' :: c :: rest ∧ c ∉ ['/', '?', '!']
  mode_eq : (scanned extended text).mode = .text []
  opened_eq : (scanned extended text).opened = []
  tokens : ∃ opening inner closing attributes,
    (scanned extended text).emitted.reverse = opening :: inner ++ [closing] ∧
      opening.kind = .opening name attributes ∧ Balanced inner ∧ closing.kind = .closing name

theorem Scanner.emitsAt_of_tag {scanner : Scanner} (modeEq : scanner.mode = .tag) {c : Char}
    (starts : c ∉ ['/', '?', '!']) (rest : List Char) :
    ((c :: rest).foldl step scanner).emitted = scanner.emitted ∨
      EmitsAt (scanner.tracker.advance scanner.start).position scanner
        ((c :: rest).foldl step scanner) := by
  simp only [List.mem_cons, List.not_mem_nil, or_false, not_or] at starts
  obtain ⟨noSlash, noQuestion, noBang⟩ := starts
  have same : scanner.step c = ({ scanner with mode := .inside (.element none) [] }).step c := by
    simp only [step, modeEq, if_neg noSlash, if_neg noQuestion, if_neg noBang, stepInside, endPiece,
      endElement]
    split
    · split
      · rfl
      · split <;> rfl
    · rfl
  rw [List.foldl_cons, same, ← List.foldl_cons]
  exact emitsAt_of_element rfl

namespace IsElement

variable {extended : Bool} {name text : String} (isElement : IsElement extended name text)
variable {scanner : Scanner} {opened : List String} {kinds : List TokenKind}
include isElement

theorem stands_behind (signed : scanner.Stands extended opened kinds .tag) :
    (text.toList.tail.foldl Scanner.step scanner).Stands extended opened
      (kinds ++ (scanned extended text).shown) (.text []) := by
  obtain ⟨c, rest, textEq, _⟩ := isElement.begins
  have noText : decode extended [] = .ok "" := rfl
  have alone : ((Scanner.ofSource extended text.toList).step '<').Stands extended [] [] .tag :=
    (Scanner.stands_ofSource extended text.toList).step_sign noText
  have scannedEq : scanned extended text =
      text.toList.tail.foldl Scanner.step ((Scanner.ofSource extended text.toList).step '<') := by
    rw [scanned, textEq]
    rfl
  have notFailed : ¬ (text.toList.tail.foldl Scanner.step
      ((Scanner.ofSource extended text.toList).step '<')).Failed := by
    rintro ⟨error, failed⟩
    rw [← scannedEq, isElement.mode_eq] at failed
    cases failed
  have framed := (alone.framed signed).foldl_step (.inr notFailed)
  rw [← scannedEq] at framed
  have ownStands : (scanned extended text).Stands extended [] ([] ++ (scanned extended text).shown)
      (.text []) :=
    ⟨(Scanner.Grows.foldl_step _ _).extended_eq, isElement.opened_eq, rfl, isElement.mode_eq⟩
  exact framed.stands ownStands

private theorem emitted_behind (signed : scanner.Stands extended opened kinds .tag) {source : List Char}
    (placed : scanner.Placed source) :
    ∃ opening inner closing attributes,
      (text.toList.tail.foldl Scanner.step scanner).emitted.reverse =
        scanner.emitted.reverse ++ (opening :: inner ++ [closing]) ∧
      opening.kind = .opening name attributes ∧
      opening.position = Scanner.positionAt source scanner.start ∧ Balanced inner ∧
      closing.kind = .closing name := by
  have shownEq := (isElement.stands_behind signed).shown_eq
  rw [← signed.shown_eq] at shownEq
  obtain ⟨c, rest, textEq, starts⟩ := isElement.begins
  obtain ⟨opening, inner, closing, attributes, tokensEq, openingKind, balanced, closingKind⟩ :=
    isElement.tokens
  rw [textEq, List.tail_cons] at shownEq ⊢
  have ownKinds : (scanned extended text).shown =
      opening.kind :: (inner.map (·.kind) ++ [closing.kind]) := by
    rw [Scanner.shown, tokensEq, List.map_append, List.map_cons]
    rfl
  rw [ownKinds] at shownEq
  rcases Scanner.emitsAt_of_tag signed.mode_eq starts rest with
    same | ⟨token, later, emittedEq, positionEq⟩
  · rw [Scanner.shown, same, Scanner.shown, List.self_eq_append_right] at shownEq
    cases shownEq
  · have reversed : ((c :: rest).foldl Scanner.step scanner).emitted.reverse =
        scanner.emitted.reverse ++ token :: later.reverse := by
      rw [emittedEq, List.reverse_append, List.reverse_cons, List.append_assoc]
      rfl
    rw [Scanner.shown, reversed, List.map_append, Scanner.shown, List.append_cancel_left_eq,
      List.map_cons, List.cons.injEq] at shownEq
    obtain ⟨tokenKind, laterKinds⟩ := shownEq
    obtain ⟨inner', closings, laterEq, innerKinds, closingKinds⟩ := List.map_eq_append_iff.1 laterKinds
    obtain ⟨closing', rfl, closingKind'⟩ := List.map_eq_singleton_iff.1 closingKinds
    refine ⟨token, inner', closing', attributes, ?_, ?_, ?_, ?_, ?_⟩
    · rw [reversed, laterEq]
      rfl
    · rw [tokenKind, openingKind]
    · rw [positionEq, placed.tracks.advance_eq (Nat.le_refl _), Scanner.positionAt]
    · exact balanced.congr innerKinds.symm
    · rw [closingKind', closingKind]

private theorem foldl_run {run : List Char}
    (stands : scanner.Stands extended opened kinds (.text run.reverse))
    {content : String} (decoded : decode extended run = .ok content) {source : List Char}
    (placed : scanner.Placed source) :
    (∃ opening inner closing attributes,
      (text.toList.foldl Scanner.step scanner).emitted.reverse =
        scanner.emitted.reverse ++ scanner.runTokens (runText run content) ++
          (opening :: inner ++ [closing]) ∧
      opening.kind = .opening name attributes ∧
      opening.position = Scanner.positionAt source scanner.offset ∧ Balanced inner ∧
      closing.kind = .closing name) ∧
    ∃ kinds', (text.toList.foldl Scanner.step scanner).Stands extended opened kinds' (.text []) := by
  have signed := stands.step_sign decoded
  have foldEq : text.toList.foldl Scanner.step scanner =
      text.toList.tail.foldl Scanner.step (scanner.step '<') := by
    obtain ⟨c, rest, textEq, _⟩ := isElement.begins
    rw [textEq]
    rfl
  obtain ⟨signEq, _, startEq, _⟩ :=
    Scanner.step_sign_run stands.mode_eq (stands.extended_eq ▸ decoded)
  have emitted := isElement.emitted_behind signed (placed.step '<')
  rw [foldEq]
  rw [signEq, startEq] at emitted
  exact ⟨emitted, _, isElement.stands_behind signed⟩

end IsElement

/-! ### Putting in -/

theorem split_sign (chars : List Char) :
    ∃ text rest, chars = text ++ rest ∧ (∀ c ∈ text, c ≠ '<') ∧
      (rest = [] ∨ ∃ more, rest = '<' :: more) := by
  induction chars with
  | nil => exact ⟨[], [], rfl, fun _ => nofun, .inl rfl⟩
  | cons c chars ih =>
      by_cases sign : c = '<'
      · exact ⟨[], c :: chars, rfl, fun _ => nofun, .inr ⟨chars, by rw [sign]⟩⟩
      · obtain ⟨text, rest, rfl, noSign, ends⟩ := ih
        refine ⟨c :: text, rest, rfl, ?_, ends⟩
        intro d member
        rcases List.mem_cons.1 member with rfl | later
        · exact sign
        · exact noSign d later

theorem blank_runText {run : List Char} {content : String} :
    Blank (runText run content) ↔ (run ≠ [] → Text.isBlankText content = true) := by
  cases run with
  | nil => exact ⟨fun _ filled => absurd rfl filled, fun _ _ => nofun⟩
  | cons c run =>
      constructor
      · intro blank _
        exact blank content rfl
      · intro blank _ isContent
        cases isContent
        exact blank (List.cons_ne_nil c run)

private theorem blank_of_append {left right : List Char} {first second : String}
    (blank : Blank (runText (left ++ right) (first ++ second))) :
    Blank (runText left first) ∧ Blank (runText right second) := by
  rw [blank_runText, Text.isBlankText_append, Bool.and_eq_true] at blank
  constructor
  · rw [blank_runText]
    intro filled
    exact (blank (List.append_ne_nil_of_left_ne_nil filled right)).1
  · rw [blank_runText]
    intro filled
    exact (blank (List.append_ne_nil_of_right_ne_nil left filled)).2

section Documents

variable {extended : Bool} {lead run : String} {path : List String}
variable (gap : Gap extended lead run path)
include gap

theorem Gap.noSign_append {text : List Char} (noSign : ∀ c ∈ text, c ≠ '<') :
    ∀ c ∈ run.toList ++ text, c ≠ '<' := by
  intro c member
  rcases List.mem_append.1 member with inRun | inText
  · exact gap.noSign c inRun
  · exact noSign c inText

/-- Documents that are the same up to a place between children differ at the end of the path there,
and there as their tokens do from then on. -/
theorem Gap.parse_edited {change : Content → Content → Prop} {original changed : String}
    {text text' : List Char} (noSign : ∀ c ∈ text, c ≠ '<') (noSign' : ∀ c ∈ text', c ≠ '<')
    {later later' : List Token}
    (tokensEq : (tokenize extended original).tokens =
      (arrive extended original.toList lead text).emitted.reverse ++ later)
    (tokensEq' : (tokenize extended changed).tokens =
      (arrive extended changed.toList lead text').emitted.reverse ++ later')
    (changes : Content.ChangesHere change later later') :
    ∃ (root : Tag) (position' : Position) (inside inside' : Content),
      Document.parse extended original = .rooted root inside ∧
      Document.parse extended changed = .rooted { root with position := position' } inside' ∧
      Content.Edited change path inside inside' := by
  have shownEq := (gap.arrive_stands original.toList noSign).shown_eq
  have shownEq' := (gap.arrive_stands changed.toList noSign').shown_eq
  obtain ⟨changed, follows⟩ := changes (tokenize extended original).ending (tokenize extended _).ending
  rw [Document.parse, Document.parse, tokensEq, tokensEq']
  exact document_edited (gap.stands_of_shown shownEq) (shownEq.trans shownEq'.symm) changed follows

/-- If the run of text at the place cannot be decoded, then the element there has no end. -/
theorem Gap.parse_refused {change : Content → Content → Prop}
    (breaks : ∀ ending content, change (.broken ending) content) {original changed : String}
    {text text' rest rest' : List Char} (split : original.toList = lead.toList ++ text ++ rest)
    (split' : changed.toList = lead.toList ++ text' ++ rest') (noSign : ∀ c ∈ text, c ≠ '<')
    (noSign' : ∀ c ∈ text', c ≠ '<') (ends : rest = [] ∨ ∃ more, rest = '<' :: more)
    {error : ReferenceError} (refused : decode extended text = .error error) :
    ∃ (root : Tag) (position' : Position) (inside inside' : Content),
      Document.parse extended original = .rooted root inside ∧
      Document.parse extended changed = .rooted { root with position := position' } inside' ∧
      Content.Edited change path inside inside' := by
  have stands := gap.arrive_stands original.toList noSign
  have tokensEq := gap.tokenize_eq split
  have tokensEq' := gap.tokenize_eq split'
  rw [← stands.extended_eq] at refused
  rw [Scanner.finish_refused ends stands.mode_eq refused, ← List.append_nil (List.reverse _)]
    at tokensEq
  obtain ⟨more, moreEq⟩ := Scanner.finish_tokens_eq (arrive extended changed.toList lead text') rest'
  rw [moreEq] at tokensEq'
  have changes : Content.ChangesHere change [] more :=
    fun ending ending' => ⟨breaks ending _, fun depth => .broken [] ending _⟩
  exact gap.parse_edited noSign noSign' tokensEq tokensEq' changes

theorem Gap.parse_element {name element : String} (isElement : IsElement extended name element)
    (after : String) :
    ∃ (tag root : Tag) (position' : Position) (inside inside' : Content),
      tag.name = name ∧
      tag.position = Scanner.positionAt (lead ++ run ++ element ++ after).toList
        (utf8Length (withoutMark lead.toList ++ run.toList)) ∧
      Document.parse extended (lead ++ run ++ after) = .rooted root inside ∧
      Document.parse extended (lead ++ run ++ element ++ after) =
        .rooted { root with position := position' } inside' ∧
      Content.Edited (Content.PutsElement tag) path inside inside' := by
  obtain ⟨text, rest, afterEq, noSign, ends⟩ := split_sign after.toList
  obtain ⟨before, beforeEq⟩ := gap.decodes
  generalize originalEq : lead ++ run ++ after = original
  generalize changedEq : lead ++ run ++ element ++ after = changed
  have split : original.toList = lead.toList ++ (run.toList ++ text) ++ rest := by
    rw [← originalEq, String.toList_append, String.toList_append, afterEq]
    simp only [List.append_assoc]
  have split' : changed.toList = lead.toList ++ run.toList ++ (element.toList ++ (text ++ rest)) := by
    rw [← changedEq, String.toList_append, String.toList_append, String.toList_append, afterEq,
      List.append_assoc (lead.toList ++ run.toList)]
  have noSignWhole := gap.noSign_append noSign
  cases wholeEq : decode extended (run.toList ++ text) with
  | error error =>
      obtain ⟨root, position', inside, inside', parsed, parsed', edited⟩ :=
        gap.parse_refused Content.PutsElement.broken split split' noSignWhole gap.noSign ends wholeEq
      exact ⟨⟨name, [], _⟩, root, position', inside, inside', rfl, rfl, parsed, parsed', edited⟩
  | ok whole =>
      obtain ⟨second, secondEq, rfl⟩ := decode_of_append beforeEq wholeEq
      obtain ⟨placed, _, offsetEq⟩ := gap.arrive_placed changed.toList gap.noSign
      obtain ⟨⟨opening, inner, closing, attributes, elementEq, openingKind, openingPosition, balanced,
        closingKind⟩, kinds, standsBehind⟩ :=
        isElement.foldl_run (gap.arrive_stands changed.toList gap.noSign) beforeEq placed
      have standsAfter := standsBehind.foldl_text noSign
      rw [List.append_nil] at standsAfter
      obtain ⟨more, more', moreEq, moreEq', kindsEq⟩ := Scanner.finish_runs ends
        (gap.arrive_stands original.toList noSignWhole) standsAfter wholeEq secondEq
      have sameEmitted := congrArg Scanner.emitted (Scanner.foldl_step_text standsBehind.mode_eq noSign)
      have tokensEq := gap.tokenize_eq split
      have tokensEq' := gap.tokenize_eq split'
      rw [moreEq, List.append_assoc] at tokensEq
      rw [List.foldl_append, List.foldl_append, moreEq', sameEmitted, elementEq] at tokensEq'
      simp only [List.append_assoc, List.cons_append, List.nil_append] at tokensEq'
      obtain ⟨root, position', inside, inside', parsed, parsed', edited⟩ :=
        gap.parse_edited noSignWhole gap.noSign tokensEq tokensEq'
          (Content.changesHere_element _ _ _ kindsEq openingKind balanced closingKind blank_of_append)
      exact ⟨⟨name, attributes, opening.position⟩, root, position', inside, inside', rfl,
        openingPosition.trans (by rw [offsetEq]), parsed, parsed', edited⟩

structure IsText (extended : Bool) (text : String) : Prop where
  noSign : ∀ c ∈ text.toList, c ≠ '<'
  decodes : ∃ content, decode extended text.toList = .ok content ∧ Text.isBlankText content = false

omit gap in
theorem IsText.ne_nil {text : String} (isText : IsText extended text) : text.toList ≠ [] := by
  intro empty
  obtain ⟨content, decoded, filled⟩ := isText.decodes
  rw [empty] at decoded
  cases decoded
  cases filled

theorem Gap.parse_text {addition : String} (isText : IsText extended addition) (after : String) :
    ∃ (root : Tag) (position' : Position) (inside inside' : Content),
      Document.parse extended (lead ++ run ++ after) = .rooted root inside ∧
      Document.parse extended (lead ++ run ++ addition ++ after) =
        .rooted { root with position := position' } inside' ∧
      Content.Edited
        (Content.PutsText (Scanner.positionAt (lead ++ run ++ addition ++ after).toList
          (utf8Length (withoutMark lead.toList)))) path inside inside' := by
  obtain ⟨text, rest, afterEq, noSign, ends⟩ := split_sign after.toList
  obtain ⟨before, beforeEq⟩ := gap.decodes
  obtain ⟨content, contentEq, filled⟩ := isText.decodes
  generalize originalEq : lead ++ run ++ after = original
  generalize changedEq : lead ++ run ++ addition ++ after = changed
  have split : original.toList = lead.toList ++ (run.toList ++ text) ++ rest := by
    rw [← originalEq, String.toList_append, String.toList_append, afterEq]
    simp only [List.append_assoc]
  have split' : changed.toList = lead.toList ++ (run.toList ++ (addition.toList ++ text)) ++ rest := by
    rw [← changedEq, String.toList_append, String.toList_append, String.toList_append, afterEq]
    simp only [List.append_assoc]
  have noSignWhole := gap.noSign_append noSign
  have noSignJoined : ∀ c ∈ run.toList ++ (addition.toList ++ text), c ≠ '<' := by
    refine gap.noSign_append ?_
    intro c member
    rcases List.mem_append.1 member with inAddition | inText
    · exact isText.noSign c inAddition
    · exact noSign c inText
  cases wholeEq : decode extended (run.toList ++ text) with
  | error error =>
      exact gap.parse_refused Content.PutsText.broken split split' noSignWhole noSignJoined ends wholeEq
  | ok whole =>
      obtain ⟨second, secondEq, rfl⟩ := decode_of_append beforeEq wholeEq
      have joinedEq := decode_append beforeEq (decode_append contentEq secondEq)
      have joinedFilled : Text.isBlankText (before ++ (content ++ second)) = false := by
        rw [Text.isBlankText_append, Text.isBlankText_append, filled, Bool.false_and, Bool.and_false]
      have joined : runText (run.toList ++ (addition.toList ++ text)) (before ++ (content ++ second)) =
          some (before ++ (content ++ second)) := by
        refine if_neg (mt List.isEmpty_iff.1 ?_)
        exact List.append_ne_nil_of_right_ne_nil _ (List.append_ne_nil_of_left_ne_nil isText.ne_nil _)
      obtain ⟨placed, startEq, _⟩ := gap.arrive_placed changed.toList noSignJoined
      obtain ⟨more, more', moreEq, moreEq', kindsEq⟩ := Scanner.finish_runs ends
        (gap.arrive_stands original.toList noSignWhole)
        (gap.arrive_stands changed.toList noSignJoined) wholeEq joinedEq
      have tokensEq := gap.tokenize_eq split
      have tokensEq' := gap.tokenize_eq split'
      rw [moreEq, List.append_assoc] at tokensEq
      rw [moreEq', joined, List.append_assoc] at tokensEq'
      have edited := gap.parse_edited noSignWhole noSignJoined tokensEq tokensEq'
        (Content.changesHere_text _ _ kindsEq joinedFilled)
      rwa [placed.tracks.advance_eq (Nat.le_refl _), startEq] at edited

end Documents

end Trellis.Markup
