import Trellis.Proofs.Markup.Splices
import Trellis.Proofs.Markup.Tags

/-!
Documents formatted in another way.

A comment or a processing instruction leaves no token; it divides the run of text in which it stands.
An empty tag is a start tag and an end tag.  So where such pieces are put in or taken out, or tags
are written in the other way, the contents of elements stay the same but for positions and for how
their texts are divided.
-/

namespace Trellis.Markup

open Text (utf8Length)

/-! ### Comments and instructions -/

/-- The second scanner is back in text, with nothing shown since the first one. -/
structure Scanner.Silent (scanner scanner' : Scanner) : Prop where
  extended_eq : scanner'.extended = scanner.extended
  opened_eq : scanner'.opened = scanner.opened
  emitted_eq : scanner'.emitted = scanner.emitted
  mode_eq : scanner'.mode = .text []

inductive IsRemark : String → Prop
  | comment (body : String) (noEnd : ¬ "-->".toList <:+: body.toList) :
      IsRemark ("<!--" ++ body ++ "-->")
  | instruction (body : String) (filled : body.toList ≠ []) (noEnd : '>' ∉ body.toList) :
      IsRemark ("<?" ++ body ++ "?>")

theorem infix_of_ends {sign : Char} (other : sign ≠ '>') {body front after : List Char}
    (split : body ++ [sign, sign] = front ++ [sign, sign] ++ '>' :: after) :
    [sign, sign, '>'] <:+: body := by
  have bodyEq : body ++ [sign, sign] = (front ++ [sign, sign, '>']) ++ after := by
    rw [split]
    simp
  rcases List.append_eq_append_iff.1 bodyEq with ⟨between, frontEq, signsEq⟩ | ⟨between, rfl, _⟩
  · cases between using List.reverseRecOn with
    | nil =>
        rw [List.append_nil] at frontEq
        exact ⟨front, [], by rw [← frontEq, List.append_nil]⟩
    | append_singleton init last =>
        have isEnd : some '>' = some last := by
          have lasts := congrArg List.getLast? frontEq
          rw [← List.append_assoc, List.getLast?_concat] at lasts
          rw [← lasts]
          simp
        have member : last ∈ [sign, sign] := by
          rw [signsEq]
          exact List.mem_append_left _ (List.mem_append_right _ List.mem_cons_self)
        rw [← Option.some_inj.1 isEnd] at member
        simp only [List.mem_cons, List.not_mem_nil, or_false, or_self] at member
        exact absurd member.symm other
  · exact ⟨front, between, rfl⟩

private theorem goesOn_comment {body : List Char} (noEnd : ¬ ['-', '-', '>'] <:+: body) :
    Piece.comment.GoesOn ('-' :: '-' :: (body ++ ['-', '-'])) := by
  intro before after split
  rw [Piece.behind_eq fun _ => rfl, Piece.endsAfter, Bool.and_eq_false_iff, decide_eq_false_iff_not]
  by_cases long : 3 < before.reverse.length
  · right
    rw [Bool.eq_false_iff]
    intro dashes
    rw [List.length_reverse] at long
    rw [List.isPrefixOf_iff_prefix, ← List.reverse_suffix, List.reverse_reverse] at dashes
    obtain ⟨front, rfl⟩ := dashes
    match front, long with
    | first :: second :: front, _ =>
        simp only [List.cons_append, List.cons.injEq] at split
        exact noEnd (infix_of_ends (by decide) split.2.2)
  · exact .inl long

namespace Scanner

variable {scanner : Scanner}

private theorem silent_comment (modeEq : scanner.mode = .tag) {body : List Char}
    (noEnd : ¬ ['-', '-', '>'] <:+: body) :
    Silent scanner (('!' :: '-' :: '-' :: (body ++ ['-', '-', '>'])).foldl step scanner) := by
  have begun : (scanner.step '!').step '-' =
      { scanner with mode := .inside .comment ['-']
                     offset := scanner.offset + '!'.utf8Size + '-'.utf8Size } := by
    have bang : scanner.step '!' =
        { scanner with mode := .bang, offset := scanner.offset + '!'.utf8Size } := by
      simp only [step, modeEq]
      rfl
    rw [bang]
    rfl
  have goesOn := goesOn_comment noEnd
  have split : '-' :: (body ++ ['-', '-', '>']) = ('-' :: (body ++ ['-', '-'])) ++ ['>'] := by simp
  rw [List.foldl_cons, List.foldl_cons, begun, split, List.foldl_append]
  have inside : ('-' :: (body ++ ['-', '-'])).foldl step
      { scanner with mode := .inside .comment ['-']
                     offset := scanner.offset + '!'.utf8Size + '-'.utf8Size } = _ :=
    @foldl_goesOn { scanner with mode := _, offset := _ } .comment ['-'] _ rfl goesOn
  have accepts : (Piece.comment.behind (['-'] ++ '-' :: (body ++ ['-', '-']))).endsAfter
      (['-'] ++ '-' :: (body ++ ['-', '-'])).reverse = true := by
    rw [Piece.behind_eq fun _ => rfl]
    simp [Piece.endsAfter]
  rw [inside, List.foldl_cons, List.foldl_nil, step_accepts rfl accepts, Piece.behind_eq fun _ => rfl]
  exact ⟨rfl, rfl, rfl, rfl⟩

private theorem silent_instruction (modeEq : scanner.mode = .tag) {body : List Char}
    (filled : body ≠ [])
    (noEnd : '>' ∉ body) :
    Silent scanner (('?' :: (body ++ ['?', '>'])).foldl step scanner) := by
  have begun : scanner.step '?' =
      { scanner with mode := .inside .instruction [], offset := scanner.offset + '?'.utf8Size } := by
    simp only [step, modeEq]
    rfl
  have noEndText : '>' ∉ body ++ ['?'] := by
    rw [List.mem_append, List.mem_singleton]
    exact fun member => member.elim noEnd (by decide)
  have goesOn : Piece.instruction.GoesOn _ := Piece.goesOn_of_noEnd noEndText
  have split : body ++ ['?', '>'] = (body ++ ['?']) ++ ['>'] := by simp
  rw [List.foldl_cons, begun, split, List.foldl_append]
  have inside : (body ++ ['?']).foldl step
      { scanner with mode := .inside .instruction [], offset := scanner.offset + '?'.utf8Size } = _ :=
    @foldl_goesOn { scanner with mode := _, offset := _ } .instruction [] _ rfl goesOn
  have accepts : (Piece.instruction.behind ([] ++ (body ++ ['?']))).endsAfter
      ([] ++ (body ++ ['?'])).reverse = true := by
    rw [Piece.behind_eq fun _ => rfl]
    rfl
  rw [inside, List.foldl_cons, List.foldl_nil, step_accepts rfl accepts, Piece.behind_eq fun _ => rfl]
  obtain ⟨init, last, rfl⟩ := (List.eq_nil_or_concat body).resolve_left filled
  simp only [endPiece, endInstruction, List.concat_eq_append, List.nil_append, List.reverse_append,
    List.reverse_cons, List.reverse_nil, List.cons_append]
  split
  · exact ⟨rfl, rfl, rfl, rfl⟩
  · exact ⟨rfl, rfl, rfl, rfl⟩

theorem silent_remark (modeEq : scanner.mode = .tag) {remark : String} (isRemark : IsRemark remark) :
    ∃ rest, remark.toList = '<' :: rest ∧ Silent scanner (rest.foldl step scanner) := by
  cases isRemark with
  | comment body noEnd =>
      refine ⟨'!' :: '-' :: '-' :: (body.toList ++ ['-', '-', '>']), ?_, silent_comment modeEq noEnd⟩
      simp only [String.toList_append, List.append_assoc]
      rfl
  | instruction body filled noEnd =>
      refine ⟨'?' :: (body.toList ++ ['?', '>']), ?_, silent_instruction modeEq filled noEnd⟩
      simp only [String.toList_append, List.append_assoc]
      rfl

end Scanner

/-! ### Documents that say the same -/

/-- The second document is the first one as it would be written otherwise, if that one is whole. -/
inductive Document.Follows : Document → Document → Prop
  | empty (ending : Ending) (document : Document) : Follows (.empty ending) document
  | rooted {root : Tag} {position' : Position} {inside inside' : Content}
      (follows : inside.Follows inside') :
      Follows (.rooted root inside) (.rooted { root with position := position' } inside')

inductive Document.Edited (change : Content → Content → Prop) (path : List String) :
    Document → Document → Prop
  | rooted {root : Tag} {position' : Position} {inside inside' : Content}
      (edited : Content.Edited change path inside inside') :
      Edited change path (.rooted root inside) (.rooted { root with position := position' } inside')

theorem Content.Edited.follows {path : List String} {content content' : Content}
    (edited : Content.Edited Content.Follows path content content') : content.Follows content' := by
  induction edited with
  | here changed => exact changed
  | text _ ih => exact ih.text
  | after follows _ ih => exact .element follows ih
  | inside _ follows ih => exact .element ih follows

theorem Document.follows_of_kinds (ending ending' : Ending) {tokens tokens' : List Token}
    (kinds : tokens.map (·.kind) = tokens'.map (·.kind)) :
    (Document.ofTokens ending tokens).Follows (Document.ofTokens ending' tokens') := by
  induction tokens generalizing tokens' with
  | nil => exact .empty _ _
  | cons token rest ih =>
      cases tokens' with
      | nil => cases kinds
      | cons token' rest' =>
          simp only [List.map_cons, List.cons.injEq] at kinds
          obtain ⟨same, kinds⟩ := kinds
          rw [Document.ofTokens, Document.ofTokens, ← same]
          cases token.kind with
          | text content => exact ih kinds
          | closing name => exact ih kinds
          | opening name attributes =>
              simp only
              rw [(Content.ofTokens_eq_level ending rest).1, (Content.ofTokens_eq_level ending' rest').1]
              exact @Document.Follows.rooted ⟨name, attributes, token.position⟩ token'.position _ _
                (Content.level_follows (kinds ▸ List.prefix_refl _) 0)

namespace Content

/-- The tokens are texts that say this together. -/
def Tells (tokens : List Token) (content : String) : Prop :=
  ∀ ending more,
    (∃ texts, joined texts = content ∧
      level ending (tokens ++ more) 0 = behind texts (level ending more 0)) ∧
    ∀ depth, level ending (tokens ++ more) (depth + 1) = level ending more (depth + 1)

theorem Tells.nil : Tells [] "" :=
  fun _ _ => ⟨⟨[], rfl, rfl⟩, fun _ => rfl⟩

private theorem tells_runTokens (scanner : Scanner) (text : Option String) :
    Tells (scanner.runTokens text) (text.getD "") := by
  intro ending more
  cases text with
  | none => exact ⟨⟨[], rfl, rfl⟩, fun _ => rfl⟩
  | some content =>
      exact ⟨⟨[((scanner.tracker.advance scanner.start).position, content)], String.append_empty, rfl⟩,
        fun _ => rfl⟩

private theorem joined_append (texts texts' : List (Position × String)) :
    joined (texts ++ texts') = joined texts ++ joined texts' := by
  induction texts with
  | nil => exact String.empty_append.symm
  | cons text texts ih =>
      change text.2 ++ joined (texts ++ texts') = text.2 ++ joined texts ++ joined texts'
      rw [ih, String.append_assoc]

theorem Tells.append {tokens tokens' : List Token} {content content' : String}
    (tells : Tells tokens content) (tells' : Tells tokens' content') :
    Tells (tokens ++ tokens') (content ++ content') := by
  intro ending more
  obtain ⟨⟨texts, textsEq, levelEq⟩, deeper⟩ := tells ending (tokens' ++ more)
  obtain ⟨⟨texts', textsEq', levelEq'⟩, deeper'⟩ := tells' ending more
  rw [List.append_assoc]
  constructor
  · refine ⟨texts ++ texts', ?_, ?_⟩
    · rw [joined_append, textsEq, textsEq']
    · rw [levelEq, levelEq', behind, behind, behind, List.foldr_append]
  · intro depth
    rw [deeper, deeper']

variable {tokens tokens' more more' : List Token} {content : String}

theorem Tells.changesHere (tells : Tells tokens content) (tells' : Tells tokens' content)
    (kinds : more.map (·.kind) = more'.map (·.kind)) :
    ChangesHere Follows (tokens ++ more) (tokens' ++ more') := by
  intro ending ending'
  obtain ⟨⟨texts, textsEq, levelEq⟩, deeper⟩ := tells ending more
  obtain ⟨⟨texts', textsEq', levelEq'⟩, deeper'⟩ := tells' ending' more'
  have isPrefix : more.map (·.kind) <+: more'.map (·.kind) := kinds ▸ List.prefix_refl _
  rw [levelEq, levelEq']
  constructor
  · exact .texts (textsEq.trans textsEq'.symm) (level_follows isPrefix 0)
  · intro depth
    rw [deeper, deeper']
    exact level_follows isPrefix (depth + 1)

theorem Tells.changesHere_broken (tells : Tells tokens content) (later : List Token) :
    ChangesHere Follows tokens later := by
  intro ending ending'
  obtain ⟨⟨texts, _, levelEq⟩, deeper⟩ := tells ending []
  rw [List.append_nil] at levelEq deeper
  rw [levelEq]
  constructor
  · exact .broken texts ending _
  · intro depth
    rw [deeper]
    exact .broken [] ending _

end Content

/-! ### Remarks put in -/

section Documents

variable {extended : Bool} {lead run : String} {path : List String}

private theorem getD_runText {chars : List Char} {content : String}
    (decoded : decode extended chars = .ok content) : (runText chars content).getD "" = content := by
  cases chars with
  | nil =>
      cases decoded
      rfl
  | cons c chars => rfl

theorem Scanner.Silent.stands {scanner scanner' : Scanner} (silent : Silent scanner scanner')
    {opened : List String} {kinds : List TokenKind} {mode : Mode}
    (stands : scanner.Stands extended opened kinds mode) :
    scanner'.Stands extended opened kinds (.text []) where
  extended_eq := silent.extended_eq.trans stands.extended_eq
  opened_eq := silent.opened_eq.trans stands.opened_eq
  shown_eq := by rw [Scanner.shown, silent.emitted_eq, ← stands.shown_eq, Scanner.shown]
  mode_eq := silent.mode_eq

variable (gap : Gap extended lead run path)
include gap

theorem Gap.follows {original changed : String} {text text' : List Char}
    (noSign : ∀ c ∈ text, c ≠ '<') (noSign' : ∀ c ∈ text', c ≠ '<') {later later' : List Token}
    (tokensEq : (tokenize extended original).tokens =
      (arrive extended original.toList lead text).emitted.reverse ++ later)
    (tokensEq' : (tokenize extended changed).tokens =
      (arrive extended changed.toList lead text').emitted.reverse ++ later')
    (changes : Content.ChangesHere Content.Follows later later') :
    (Document.parse extended original).Follows (Document.parse extended changed) := by
  obtain ⟨root, position', inside, inside', originalEq, changedEq, edited⟩ :=
    gap.parse_edited noSign noSign' tokensEq tokensEq' changes
  rw [originalEq, changedEq]
  exact .rooted edited.follows

theorem Gap.tokenize_remark {remark : String} (isRemark : IsRemark remark) {document : String}
    {text rest : List Char}
    (split : document.toList = lead.toList ++ run.toList ++ (remark.toList ++ (text ++ rest)))
    (noSign : ∀ c ∈ text, c ≠ '<') {before : String}
    (beforeEq : decode extended run.toList = .ok before) :
    ∃ kinds reached, Scanner.Stands extended (scanned extended lead).opened kinds
        (.text text.reverse) reached ∧
      reached.emitted.reverse = (arrive extended document.toList lead run.toList).emitted.reverse ++
        (arrive extended document.toList lead run.toList).runTokens (runText run.toList before) ∧
      (tokenize extended document).tokens = (rest.foldl Scanner.step reached).finish.tokens := by
  have stands := gap.arrive_stands document.toList gap.noSign
  have signed := stands.step_sign beforeEq
  obtain ⟨remarkRest, remarkEq, silent⟩ := Scanner.silent_remark signed.mode_eq isRemark
  have behind := (silent.stands signed).foldl_text noSign
  rw [List.append_nil] at behind
  have tokensEq := gap.tokenize_eq split
  rw [remarkEq, List.cons_append, List.foldl_cons, List.foldl_append, List.foldl_append] at tokensEq
  have signEq := (Scanner.step_sign_run stands.mode_eq (stands.extended_eq ▸ beforeEq)).1
  refine ⟨_, _, behind, ?_, tokensEq⟩
  rw [congrArg Scanner.emitted (Scanner.foldl_step_text silent.mode_eq noSign), silent.emitted_eq]
  exact signEq

theorem Gap.parse_remark {remark : String} (isRemark : IsRemark remark) (after : String) :
    (Document.parse extended (lead ++ run ++ after)).Follows
        (Document.parse extended (lead ++ run ++ remark ++ after)) ∧
      (Document.parse extended (lead ++ run ++ remark ++ after)).Follows
        (Document.parse extended (lead ++ run ++ after)) := by
  obtain ⟨text, rest, afterEq, noSign, ends⟩ := split_sign after.toList
  obtain ⟨before, beforeEq⟩ := gap.decodes
  generalize originalEq : lead ++ run ++ after = original
  generalize changedEq : lead ++ run ++ remark ++ after = changed
  have split : original.toList = lead.toList ++ (run.toList ++ text) ++ rest := by
    rw [← originalEq, String.toList_append, String.toList_append, afterEq]
    simp only [List.append_assoc]
  have split' : changed.toList = lead.toList ++ run.toList ++ (remark.toList ++ (text ++ rest)) := by
    rw [← changedEq, String.toList_append, String.toList_append, String.toList_append, afterEq,
      List.append_assoc (lead.toList ++ run.toList)]
  have noSignWhole := gap.noSign_append noSign
  have stands := gap.arrive_stands original.toList noSignWhole
  have tokensEq := gap.tokenize_eq split
  obtain ⟨_, reached, behind, emittedEq, tokensEq'⟩ :=
    gap.tokenize_remark isRemark split' noSign beforeEq
  have tellsBefore := Content.tells_runTokens (arrive extended changed.toList lead run.toList)
    (runText run.toList before)
  rw [getD_runText beforeEq] at tellsBefore
  cases wholeEq : decode extended (run.toList ++ text) with
  | error error =>
      have refused : ∃ error, decode extended text = .error error := by
        cases secondEq : decode extended text with
        | error error => exact ⟨error, rfl⟩
        | ok second =>
            rw [decode_append beforeEq secondEq] at wholeEq
            cases wholeEq
      obtain ⟨error', secondEq⟩ := refused
      rw [Scanner.finish_refused ends stands.mode_eq (stands.extended_eq ▸ wholeEq)] at tokensEq
      rw [Scanner.finish_refused ends behind.mode_eq (behind.extended_eq ▸ secondEq), emittedEq]
        at tokensEq'
      rw [← List.append_nil (List.reverse _)] at tokensEq
      exact ⟨gap.follows noSignWhole gap.noSign tokensEq tokensEq' (Content.Tells.nil.changesHere_broken _),
        gap.follows gap.noSign noSignWhole tokensEq' tokensEq (tellsBefore.changesHere_broken _)⟩
  | ok whole =>
      obtain ⟨second, secondEq, rfl⟩ := decode_of_append beforeEq wholeEq
      obtain ⟨more, more', moreEq, moreEq', kindsEq⟩ :=
        Scanner.finish_runs ends stands behind wholeEq secondEq
      rw [moreEq, List.append_assoc] at tokensEq
      rw [moreEq', emittedEq] at tokensEq'
      simp only [List.append_assoc] at tokensEq'
      rw [← List.append_assoc (Scanner.runTokens _ _)] at tokensEq'
      have tellsWhole := Content.tells_runTokens
        (arrive extended original.toList lead (run.toList ++ text))
        (runText (run.toList ++ text) (before ++ second))
      rw [getD_runText wholeEq] at tellsWhole
      have tellsSecond (scanner : Scanner) := Content.tells_runTokens scanner (runText text second)
      simp only [getD_runText secondEq] at tellsSecond
      have tellsBoth (scanner : Scanner) := tellsBefore.append (tellsSecond scanner)
      exact ⟨gap.follows noSignWhole gap.noSign tokensEq tokensEq'
          (tellsWhole.changesHere (tellsBoth _) kindsEq),
        gap.follows gap.noSign noSignWhole tokensEq' tokensEq
          ((tellsBoth _).changesHere tellsWhole kindsEq.symm)⟩

end Documents

/-! ### Blanks put in -/

/-- The contents differ in blank text. -/
inductive Content.Relaxes : Content → Content → Prop
  | blank {text text' : Option String} {content content' rest rest' : Content}
      (led : Led text rest content) (led' : Led text' rest' content')
      (blank : Blank text ↔ Blank text') (follows : rest.Follows rest') : Relaxes content content'
  | broken (ending : Ending) (content : Content) : Relaxes (.broken ending) content

theorem Content.changesHere_relaxes (scanner scanner' : Scanner) {text text' : Option String}
    (blank : Blank text ↔ Blank text') {more more' : List Token}
    (kinds : more.map (·.kind) = more'.map (·.kind)) :
    ChangesHere Relaxes (scanner.runTokens text ++ more) (scanner'.runTokens text' ++ more') := by
  intro ending ending'
  have isPrefix : more.map (·.kind) <+: more'.map (·.kind) := kinds ▸ List.prefix_refl _
  constructor
  · exact .blank (led_level _ _ _ _) (led_level _ _ _ _) blank (level_follows isPrefix 0)
  · intro depth
    rw [level_runTokens, level_runTokens]
    exact level_follows isPrefix (depth + 1)

structure IsBlank (extended : Bool) (text : String) : Prop where
  noSign : ∀ c ∈ text.toList, c ≠ '<'
  decodes : ∃ content, decode extended text.toList = .ok content ∧ Text.isBlankText content = true

section Blanks

variable {extended : Bool} {lead run : String} {path : List String}
variable (gap : Gap extended lead run path)
include gap

theorem Gap.parse_relaxed {original changed : String} {text text' rest : List Char}
    (split : original.toList = lead.toList ++ text ++ rest)
    (split' : changed.toList = lead.toList ++ text' ++ rest) (noSign : ∀ c ∈ text, c ≠ '<')
    (noSign' : ∀ c ∈ text', c ≠ '<') (ends : rest = [] ∨ ∃ more, rest = '<' :: more)
    (blank : ∀ content, decode extended text = .ok content →
      ∃ content', decode extended text' = .ok content' ∧
        (Blank (runText text content) ↔ Blank (runText text' content'))) :
    (Document.parse extended original).Edited Content.Relaxes path
      (Document.parse extended changed) := by
  have parsed : ∃ (root : Tag) (position' : Position) (inside inside' : Content),
      Document.parse extended original = .rooted root inside ∧
      Document.parse extended changed = .rooted { root with position := position' } inside' ∧
      Content.Edited Content.Relaxes path inside inside' := by
    cases decoded : decode extended text with
    | error error =>
        exact gap.parse_refused Content.Relaxes.broken split split' noSign noSign' ends decoded
    | ok content =>
        obtain ⟨content', decoded', both⟩ := blank content decoded
        obtain ⟨more, more', moreEq, moreEq', kindsEq⟩ := Scanner.finish_runs ends
          (gap.arrive_stands original.toList noSign) (gap.arrive_stands changed.toList noSign')
          decoded decoded'
        have tokensEq := gap.tokenize_eq split
        have tokensEq' := gap.tokenize_eq split'
        rw [moreEq, List.append_assoc] at tokensEq
        rw [moreEq', List.append_assoc] at tokensEq'
        exact gap.parse_edited noSign noSign' tokensEq tokensEq'
          (Content.changesHere_relaxes _ _ both kindsEq)
  obtain ⟨root, position', inside, inside', originalEq, changedEq, edited⟩ := parsed
  rw [originalEq, changedEq]
  exact .rooted edited

theorem Gap.parse_blank {addition : String} (isBlank : IsBlank extended addition) (after : String) :
    (Document.parse extended (lead ++ run ++ after)).Edited Content.Relaxes path
        (Document.parse extended (lead ++ run ++ addition ++ after)) ∧
      (Document.parse extended (lead ++ run ++ addition ++ after)).Edited Content.Relaxes path
        (Document.parse extended (lead ++ run ++ after)) := by
  obtain ⟨text, rest, afterEq, noSign, ends⟩ := split_sign after.toList
  obtain ⟨before, beforeEq⟩ := gap.decodes
  obtain ⟨content, contentEq, blank⟩ := isBlank.decodes
  have split : (lead ++ run ++ after).toList = lead.toList ++ (run.toList ++ text) ++ rest := by
    rw [String.toList_append, String.toList_append, afterEq]
    simp only [List.append_assoc]
  have split' : (lead ++ run ++ addition ++ after).toList =
      lead.toList ++ (run.toList ++ (addition.toList ++ text)) ++ rest := by
    rw [String.toList_append, String.toList_append, String.toList_append, afterEq]
    simp only [List.append_assoc]
  have noSignWhole := gap.noSign_append noSign
  have noSignJoined : ∀ c ∈ run.toList ++ (addition.toList ++ text), c ≠ '<' := by
    apply gap.noSign_append
    intro c member
    rcases List.mem_append.1 member with inAddition | inText
    · exact isBlank.noSign c inAddition
    · exact noSign c inText
  -- Blank text makes no text blank that was not, and none filled that was blank.
  have alike (second : String) (secondEq : decode extended text = .ok second) :
      Blank (runText (run.toList ++ text) (before ++ second)) ↔
        Blank (runText (run.toList ++ (addition.toList ++ text)) (before ++ (content ++ second))) := by
    rw [blank_runText, blank_runText, Text.isBlankText_append, Text.isBlankText_append,
      Text.isBlankText_append, blank, Bool.true_and]
    constructor
    · intro blankWhole _
      by_cases empty : run.toList ++ text = []
      · obtain ⟨runEmpty, textEmpty⟩ := List.append_eq_nil_iff.1 empty
        rw [runEmpty] at beforeEq
        rw [textEmpty] at secondEq
        cases beforeEq
        cases secondEq
        rfl
      · exact blankWhole empty
    · intro blankJoined filled
      apply blankJoined
      intro empty
      obtain ⟨runEmpty, laterEmpty⟩ := List.append_eq_nil_iff.1 empty
      exact filled (List.append_eq_nil_iff.2 ⟨runEmpty, (List.append_eq_nil_iff.1 laterEmpty).2⟩)
  constructor
  · apply gap.parse_relaxed split split' noSignWhole noSignJoined ends
    intro whole wholeEq
    obtain ⟨second, secondEq, rfl⟩ := decode_of_append beforeEq wholeEq
    exact ⟨_, decode_append beforeEq (decode_append contentEq secondEq), alike second secondEq⟩
  · apply gap.parse_relaxed split' split noSignJoined noSignWhole ends
    intro joined joinedEq
    obtain ⟨later, laterEq, rfl⟩ := decode_of_append beforeEq joinedEq
    obtain ⟨second, secondEq, rfl⟩ := decode_of_append contentEq laterEq
    exact ⟨_, decode_append beforeEq secondEq, (alike second secondEq).symm⟩

end Blanks

/-! ### Tags written in the other way -/

def emptyTag (text : String) : String :=
  "<" ++ text ++ "/>"

def tagPair (text : String) : String :=
  "<" ++ text ++ "></" ++ tagName text.toList ++ ">"

namespace Scanner

variable {scanner scanner' : Scanner} {extended : Bool} {opened : List String}
variable {kinds : List TokenKind}

theorem Stands.alike {mode : Mode} (stands : scanner.Stands extended opened kinds mode)
    (stands' : scanner'.Stands extended opened kinds mode) : Framed [] [] [] scanner scanner' where
  extended_eq := stands'.extended_eq.trans stands.extended_eq.symm
  mode_eq := stands'.mode_eq.trans stands.mode_eq.symm
  opened_eq := by rw [stands'.opened_eq, stands.opened_eq, List.append_nil]
  shown_eq := ⟨kinds, stands.shown_eq, stands'.shown_eq⟩

theorem Stands.step_refused {taken : List Char}
    (stands : scanner.Stands extended opened kinds (.text taken)) {error : ReferenceError}
    (refused : decode extended taken.reverse = .error error) :
    (scanner.step '<').Stands extended opened kinds (.failed (.reference error)) := by
  have filled : taken ≠ [] := by
    intro empty
    rw [empty] at refused
    cases refused
  rw [step_sign_error stands.mode_eq filled (stands.extended_eq ▸ refused)]
  exact stands.turn _ _ _

/-- Behind an element without content: it is shown, or there is a mistake among its attributes. -/
def Settles (extended : Bool) (opened : List String) (kinds : List TokenKind) (text : List Char)
    (scanner : Scanner) : Prop :=
  match tagAttributes extended text with
  | .ok attributes =>
      scanner.Stands extended opened
        (kinds ++ [.opening (tagName text) attributes] ++ [.closing (tagName text)]) (.text [])
  | .error error => scanner.Stands extended opened kinds (.failed error)

section Tags

variable {text : String} (isTag : IsTag text)
  (stands : scanner.Stands extended opened kinds .tag)
include isTag stands

theorem settles_emptyTag :
    Settles extended opened kinds text.toList ((text.toList ++ ['/', '>']).foldl step scanner) := by
  rw [List.foldl_append, foldl_tag isTag stands.mode_eq, List.foldl_cons, List.foldl_cons,
    List.foldl_nil]
  generalize scanner.offset + utf8Length text.toList = offset
  have ended : (({ scanner with mode := .inside (.element none) text.toList.reverse, offset }).step
      '/').step '>' =
      ({ scanner with mode := .inside (.element none) ('/' :: text.toList.reverse)
                      offset := offset + '/'.utf8Size + '>'.utf8Size }).endElement
        ('/' :: text.toList.reverse).reverse := by
    rfl
  have inside := stands.turn (.inside (.element none) ('/' :: text.toList.reverse))
    (offset + '/'.utf8Size + '>'.utf8Size) scanner.start
  rw [ended, endElement_eq, List.reverse_cons, List.reverse_reverse, tagBody_concat]
  simp only [List.getLast?_concat, if_true]
  unfold Settles
  rw [← stands.extended_eq] at inside ⊢
  cases tagAttributes scanner.extended text.toList with
  | error error => exact inside.turn _ _ _
  | ok attributes => exact ((inside.emit _ _).emit _ _).beginText

private theorem settles_tagPair :
    Settles extended opened kinds text.toList
      ((text.toList ++ '>' :: '<' :: '/' :: ((tagName text.toList).toList ++ ['>'])).foldl step
        scanner) := by
  have reached := stands.startTag isTag
  rw [List.append_cons, List.foldl_append]
  unfold Settles
  cases decoded : tagAttributes extended text.toList with
  | error error =>
      rw [decoded] at reached
      simp only
      rw [foldl_step_of_failed ⟨error, reached.mode_eq⟩]
      exact reached
  | ok attributes =>
      rw [decoded] at reached
      exact reached.step_sign_nil.endTag (closingName_tagName _) isTag.named

end Tags

theorem Settles.framed {text : List Char} (settles : Settles extended opened kinds text scanner)
    (settles' : Settles extended opened kinds text scanner') : Framed [] [] [] scanner scanner' := by
  unfold Settles at settles settles'
  cases decoded : tagAttributes extended text with
  | error error =>
      rw [decoded] at settles settles'
      exact settles.alike settles'
  | ok attributes =>
      rw [decoded] at settles settles'
      exact settles.alike settles'

/-- In text, an empty tag leads where the start tag and the end tag lead. -/
theorem Stands.framed_tags {taken : List Char}
    (stands : scanner.Stands extended opened kinds (.text taken))
    (stands' : scanner'.Stands extended opened kinds (.text taken)) {text : String}
    (isTag : IsTag text) :
    Framed [] [] [] ((emptyTag text).toList.foldl step scanner)
      ((tagPair text).toList.foldl step scanner') := by
  have emptyEq : (emptyTag text).toList = '<' :: (text.toList ++ ['/', '>']) := by
    simp only [emptyTag, String.toList_append]
    rfl
  have pairEq : (tagPair text).toList =
      '<' :: (text.toList ++ '>' :: '<' :: '/' :: ((tagName text.toList).toList ++ ['>'])) := by
    simp only [tagPair, String.toList_append, List.append_assoc]
    rfl
  rw [emptyEq, pairEq, List.foldl_cons, List.foldl_cons]
  cases decoded : decode extended taken.reverse with
  | ok content =>
      rw [← List.reverse_reverse taken] at stands stands'
      have settles := settles_emptyTag isTag (stands.step_sign decoded)
      have settles' := settles_tagPair isTag (stands'.step_sign decoded)
      exact settles.framed settles'
  | error error =>
      have refused := stands.step_refused decoded
      have refused' := stands'.step_refused decoded
      rw [foldl_step_of_failed ⟨_, refused.mode_eq⟩, foldl_step_of_failed ⟨_, refused'.mode_eq⟩]
      exact refused.alike refused'

end Scanner

section Documents

variable {extended : Bool}

theorem withoutMark_sign (chars rest : List Char) :
    withoutMark (chars ++ '<' :: rest) = withoutMark chars ++ '<' :: rest := by
  cases chars with
  | nil => rfl
  | cons c chars => exact withoutMark_append (List.cons_ne_nil _ _) _

theorem tokenize_signed (front back : String) {piece : String} {rest : List Char}
    (pieceEq : piece.toList = '<' :: rest) :
    (tokenize extended (front ++ piece ++ back)).tokens =
      (back.toList.foldl Scanner.step (piece.toList.foldl Scanner.step
        (arrive extended (front ++ piece ++ back).toList front []))).finish.tokens := by
  unfold tokenize arrive
  simp only
  rw [← List.foldl_append, ← List.foldl_append, String.toList_append, String.toList_append,
    List.append_assoc, pieceEq, List.cons_append, withoutMark_sign, List.append_nil]

theorem parse_tags {front text : String}
    (inText : ∃ taken, (scanned extended front).mode = .text taken) (isTag : IsTag text)
    (back : String) :
    (Document.parse extended (front ++ emptyTag text ++ back)).Follows
        (Document.parse extended (front ++ tagPair text ++ back)) ∧
      (Document.parse extended (front ++ tagPair text ++ back)).Follows
        (Document.parse extended (front ++ emptyTag text ++ back)) := by
  obtain ⟨taken, modeEq⟩ := inText
  have emptyEq : (emptyTag text).toList = '<' :: (text ++ "/>").toList := by
    rw [emptyTag, String.append_assoc, String.toList_append]
    rfl
  have pairEq : (tagPair text).toList =
      '<' :: (text ++ ("></" ++ (tagName text.toList ++ ">"))).toList := by
    rw [tagPair, String.append_assoc, String.append_assoc, String.append_assoc, String.toList_append]
    rfl
  have arrives (source : List Char) := stands_arrive extended source modeEq
  have framed := (arrives (front ++ emptyTag text ++ back).toList).framed_tags
    (arrives (front ++ tagPair text ++ back).toList) isTag
  have framedBehind : Scanner.Framed [] [] [] (back.toList.foldl Scanner.step _) _ :=
    framed.foldl_step (.inl rfl)
  obtain ⟨kinds, kindsEq, kindsEq'⟩ := framedBehind.finish
  rw [← tokenize_signed front back emptyEq] at kindsEq
  rw [← tokenize_signed front back pairEq] at kindsEq'
  have same := kindsEq.trans kindsEq'.symm
  exact ⟨Document.follows_of_kinds _ _ same, Document.follows_of_kinds _ _ same.symm⟩

end Documents

end Trellis.Markup
