import Trellis.Proofs.Markup.Spellings
import Trellis.Proofs.Walk.Cursor
import Trellis.Proofs.Writing.Scanning

/-!
What a cursor reports of a text that has been written.

However a text is written as the content of an element, the cursor on the start tag gives that text
and stops on the end tag; and however a text is written as the value of an attribute, the cursor gives
that text as the value.
-/

namespace Trellis.Reading

open Markup

/-! ### Texts up to an end tag -/

theorem Cursor.nextTextAmong_texts {texts : List String} {inside : List Token}
    (kinds : inside.map (·.kind) = texts.map .text) {closing : Token} {name : String}
    (kind : closing.kind = .closing name) (before : String) (cursor : Cursor) (rest : List Token) :
    Cursor.nextTextAmong before cursor (inside ++ closing :: rest) =
      (.ok (before ++ String.join texts), cursor.onto closing rest) := by
  induction texts generalizing inside before cursor with
  | nil =>
      rw [List.map_nil, List.map_eq_nil_iff] at kinds
      rw [kinds, String.join_nil, String.append_empty, List.nil_append]
      simp only [Cursor.nextTextAmong, kind]
  | cons text texts ih =>
      obtain ⟨token, inside, rfl, tokenKind, kinds⟩ := List.map_eq_cons_iff.1 kinds
      have further := ih kinds (before ++ text) (cursor.onto token (inside ++ closing :: rest))
      rw [String.join_cons, ← String.append_assoc, List.cons_append]
      simp only [Cursor.nextTextAmong, tokenKind]
      rw [further, Cursor.onto_eq_of_closing kind (Cursor.onto_ending _ _ _) (Cursor.onto_source _ _ _)]

/-! ### Places in a document -/

def BehindStartTag (extended : Bool) (lead name : String) (attributes : List (String × String)) :
    Prop :=
  ∃ outer kinds, (scanned extended lead).Stands extended (name :: outer)
    (kinds ++ [.opening name attributes]) (.text [])

def TagCanBegin (extended : Bool) (lead : String) : Prop :=
  ((scanned extended lead).step '<').mode = .tag

variable {extended : Bool} {lead name : String} {attributes : List (String × String)}

private theorem tokenize_foldl (extended : Bool) {document : String} {front rest : List Char}
    (split : withoutMark document.toList = front ++ rest) :
    ∃ later, (tokenize extended document).tokens =
      (front.foldl Scanner.step (.ofSource extended document.toList)).emitted.reverse ++
        later := by
  unfold tokenize
  simp only [split, List.foldl_append]
  exact Scanner.finish_tokens_eq _ _

theorem BehindStartTag.lead_ne_nil (behind : BehindStartTag extended lead name attributes) :
    lead.toList ≠ [] := by
  obtain ⟨outer, kinds, stands⟩ := behind
  intro empty
  have openedEq := stands.opened_eq
  rw [scanned, empty] at openedEq
  cases openedEq

theorem BehindStartTag.arrives (behind : BehindStartTag extended lead name attributes)
    (source : List Char) :
    ∃ outer kinds, (scanned extended lead).shown = kinds ++ [.opening name attributes] ∧
      ((withoutMark lead.toList).foldl Scanner.step (.ofSource extended source)).Stands extended
        (name :: outer) (kinds ++ [.opening name attributes]) (.text []) := by
  obtain ⟨outer, kinds, stands⟩ := behind
  have here := stands_arrive extended source stands.mode_eq
  rw [stands.opened_eq, stands.shown_eq, arrive, List.append_nil] at here
  exact ⟨outer, kinds, stands.shown_eq, here⟩

theorem TagCanBegin.arrives (begins : TagCanBegin extended lead) (source : List Char) :
    ((withoutMark lead.toList ++ ['<']).foldl Scanner.step (.ofSource extended source)).Stands extended
      ((scanned extended lead).step '<').opened ((scanned extended lead).step '<').shown .tag := by
  have here := Scanner.stands_foldl extended lead.toList source (withoutMark lead.toList ++ ['<'])
  have modeEq : ((scanned extended lead).step '<').mode = .tag := begins
  rw [← modeEq]
  simp only [List.foldl_append, List.foldl_cons, List.foldl_nil] at here ⊢
  exact here

private theorem tokens_of_kinds {tokens : List Token} {kinds : List TokenKind} {texts : List String}
    (kindsEq : tokens.map (·.kind) =
      kinds ++ [TokenKind.opening name attributes] ++ texts.map TokenKind.text ++
        [TokenKind.closing name]) :
    ∃ before opening inside closing, tokens = before ++ opening :: (inside ++ [closing]) ∧
      before.map (·.kind) = kinds ∧ opening.kind = .opening name attributes ∧
      inside.map (·.kind) = texts.map .text ∧ closing.kind = .closing name := by
  obtain ⟨front, last, rfl, frontKinds, lastKinds⟩ := List.map_eq_append_iff.1 kindsEq
  obtain ⟨start, inside, rfl, startKinds, insideKinds⟩ := List.map_eq_append_iff.1 frontKinds
  obtain ⟨before, single, rfl, beforeKinds, singleKinds⟩ := List.map_eq_append_iff.1 startKinds
  obtain ⟨opening, rfl, openingKind⟩ := List.map_eq_singleton_iff.1 singleKinds
  obtain ⟨closing, rfl, closingKind⟩ := List.map_eq_singleton_iff.1 lastKinds
  exact ⟨before, opening, inside, closing, by simp, beforeKinds, openingKind, insideKinds, closingKind⟩

/-- However the content is written, the text is read, up to the end tag. -/
private theorem nextText_of_writes (behind : BehindStartTag extended lead name attributes)
    (isTagName : IsTagName name) {text content : String}
    (writes : Writes text.toList content.toList) (rest : String) (source : Option Source) :
    let document := lead ++ content ++ "</" ++ name ++ ">" ++ rest
    ∃ before opening inside closing after,
      (tokenize extended document).tokens = before ++ opening :: (inside ++ closing :: after) ∧
      (before ++ [opening]).map (·.kind) = (scanned extended lead).shown ∧
      opening.kind = .opening name attributes ∧ closing.kind = .closing name ∧
      let cursor := (Cursor.ofDocument extended document source).onto opening
        (inside ++ closing :: after)
      cursor.nextText = (.ok text, cursor.onto closing after) := by
  intro document
  have split : withoutMark document.toList =
      (withoutMark lead.toList ++ (content.toList ++ '<' :: ('/' :: (name.toList ++ ['>'])))) ++
        rest.toList := by
    have documentEq : document.toList =
        lead.toList ++ (content.toList ++ '<' :: ('/' :: (name.toList ++ ['>'])) ++ rest.toList) := by
      simp [document]
    rw [documentEq, withoutMark_append behind.lead_ne_nil, ← List.append_assoc]
  obtain ⟨after, tokensEq⟩ := tokenize_foldl extended split
  obtain ⟨outer, kinds, shownEq, stands⟩ := behind.arrives document.toList
  have none : decode extended [] = .ok "" := rfl
  obtain ⟨texts, run, last, written, lastEq, joinedEq⟩ :=
    Scanner.Stands.writes writes [] stands none
  have own : closingName name.toList = name.toList :=
    Scanner.closingName_of_solid fun c member => (isTagName.solid c member).1
  have noEnd : '>' ∉ name.toList := fun member => (isTagName.solid '>' member).2 (by decide)
  have ended := (written.step_sign lastEq).endTag own noEnd
  rw [← List.foldl_cons, ← List.foldl_append, ← List.foldl_append] at ended
  have kindsEq := ended.shown_eq
  rw [List.append_assoc _ (texts.map _), ← List.map_append] at kindsEq
  obtain ⟨before, opening, inside, closing, shownTokens, beforeKinds, openingKind, insideKinds,
    closingKind⟩ := tokens_of_kinds kindsEq
  refine ⟨before, opening, inside, closing, after, ?_, ?_, openingKind, closingKind, ?_⟩
  · rw [tokensEq, shownTokens]
    simp only [List.append_assoc, List.cons_append, List.nil_append]
  · rw [shownEq, List.map_append, beforeKinds, List.map_singleton, openingKind]
  · have textEq : "" ++ String.join (texts ++ (runText run last).toList) = text := by
      rw [String.empty_append, String.join_append, join_runText lastEq, joinedEq,
        String.empty_append, String.ofList_toList]
    have read := Cursor.nextTextAmong_texts insideKinds closingKind ""
      ((Cursor.ofDocument extended document source).onto opening (inside ++ closing :: after)) after
    rw [textEq] at read
    exact read

/-! ### Attributes -/

/-- The attributes are written in a row, each with a name of its own and with blanks around it, and
each value is written in one way or another between quotation marks. -/
structure SpellsAttributes (row : List WrittenAttribute) (attributes : List (String × String)) :
    Prop where
  wellFormed : ∀ written ∈ row, written.WellFormed
  distinct : (row.map (·.name)).Nodup
  spells : List.Forall₂ (fun written pair => written.name = pair.1 ∧
    SpellsText ['&', '<', written.quote] pair.2.toList written.value.toList) row attributes

theorem SpellsAttributes.means {row : List WrittenAttribute} (spells : SpellsAttributes row attributes)
    (extended : Bool) : List.Forall₂ (WrittenAttribute.Means extended) row attributes := by
  refine spells.spells.imp ?_
  rintro written pair ⟨nameEq, valueEq⟩
  refine ⟨nameEq, ?_⟩
  rw [valueEq.decode_eq List.mem_cons_self, String.ofList_toList]

theorem SpellsAttributes.names_eq {row : List WrittenAttribute}
    (spells : SpellsAttributes row attributes) : row.map (·.name) = attributes.map Prod.fst := by
  rw [← List.forall₂_eq_eq_eq, List.forall₂_map_left_iff, List.forall₂_map_right_iff]
  exact spells.spells.imp fun _ _ spelled => spelled.1

theorem SpellsAttributes.tagAttributes_eq {row : List WrittenAttribute}
    (spells : SpellsAttributes row attributes) (isTagName : IsTagName name) {tail : String}
    (blank : ∀ c ∈ tail.toList, isTagBlank c = true) (extended : Bool) :
    tagAttributes extended (tagText name row tail).toList = .ok attributes := by
  rw [tagAttributes_tagText isTagName spells.wellFormed blank,
    decodeAttributes_row spells.wellFormed blank]
  exact ⟨spells.distinct, spells.means extended⟩

private theorem lookup_of_nodup {pairs : List (String × String)} (distinct : (pairs.map Prod.fst).Nodup)
    {pair : String × String} (member : pair ∈ pairs) : pairs.lookup pair.1 = some pair.2 := by
  induction pairs with
  | nil => cases member
  | cons first rest ih =>
      rw [List.map_cons, List.nodup_cons] at distinct
      rw [List.lookup_cons]
      rcases List.mem_cons.1 member with rfl | later
      · rw [beq_self_eq_true]
      · have other : (pair.1 == first.1) = false := by
          rw [beq_eq_false_iff_ne]
          intro same
          exact distinct.1 (same ▸ List.mem_map_of_mem later)
        rw [other]
        exact ih distinct.2 later

private theorem shown_of_spells {scanner : Scanner} {opened : List String} {kinds : List TokenKind}
    (stands : scanner.Stands extended opened kinds .tag) (isTagName : IsTagName name)
    {row : List WrittenAttribute} (spells : SpellsAttributes row attributes) {tail : String}
    (blank : ∀ c ∈ tail.toList, isTagBlank c = true) {ending : String} (ends : ending ∈ [">", "/>"]) :
    ∃ more, (((tagText name row tail).toList ++ ending.toList).foldl Scanner.step scanner).shown =
      kinds ++ .opening name attributes :: more := by
  have isTag := isTag_tagText isTagName spells.wellFormed blank
  have nameEq := tagName_tagText isTagName spells.wellFormed blank
  have attributesEq := spells.tagAttributes_eq isTagName blank extended
  rw [List.mem_cons, List.mem_singleton] at ends
  rcases ends with rfl | rfl
  · have behind := stands.startTag isTag
    simp only [attributesEq, nameEq] at behind
    exact ⟨[], behind.shown_eq⟩
  · have behind := Scanner.settles_emptyTag isTag stands
    simp only [Scanner.Settles, attributesEq, nameEq, List.append_assoc] at behind
    exact ⟨[.closing name], behind.shown_eq⟩

private theorem attributes_of_spells (begins : TagCanBegin extended lead) (isTagName : IsTagName name)
    {row : List WrittenAttribute} (spells : SpellsAttributes row attributes) {tail : String}
    (blank : ∀ c ∈ tail.toList, isTagBlank c = true) {ending : String} (ends : ending ∈ [">", "/>"])
    (rest : String) (source : Option Source) :
    let document := lead ++ "<" ++ tagText name row tail ++ ending ++ rest
    ∃ before opening after,
      (tokenize extended document).tokens = before ++ opening :: after ∧
      before.map (·.kind) = ((scanned extended lead).step '<').shown ∧
      opening.kind = .opening name attributes ∧
      let cursor := (Cursor.ofDocument extended document source).onto opening after
      cursor.current.attributes = attributes ∧
      ∀ pair ∈ attributes, cursor.attribute? pair.1 = some pair.2 := by
  intro document
  have split : withoutMark document.toList =
      (withoutMark lead.toList ++ ['<'] ++ ((tagText name row tail).toList ++ ending.toList)) ++
        rest.toList := by
    have documentEq : document.toList =
        lead.toList ++ '<' :: ((tagText name row tail).toList ++ ending.toList ++ rest.toList) := by
      simp [document]
    rw [documentEq, withoutMark_sign]
    simp
  obtain ⟨later, tokensEq⟩ := tokenize_foldl extended split
  obtain ⟨more, shownEq⟩ :=
    shown_of_spells (begins.arrives document.toList) isTagName spells blank ends
  rw [← List.foldl_append] at shownEq
  obtain ⟨before, behind, shownTokens, beforeKinds, behindKinds⟩ := List.map_eq_append_iff.1 shownEq
  obtain ⟨opening, remaining, rfl, openingKind, _⟩ := List.map_eq_cons_iff.1 behindKinds
  refine ⟨before, opening, remaining ++ later, ?_, beforeKinds, openingKind, ?_⟩
  · rw [tokensEq, shownTokens, List.append_assoc, List.cons_append]
  · intro cursor
    have attributesEq : cursor.current.attributes = attributes :=
      congrArg Markup.Tag.attributes (Cursor.tag_onto_of_opening openingKind _ _)
    refine ⟨attributesEq, ?_⟩
    intro pair member
    rw [Cursor.attribute?, attributesEq]
    exact lookup_of_nodup (spells.names_eq ▸ spells.distinct) member

/-! ### Written texts are read -/

/-- However a text is written as the content of an element, reading the text of the element gives it
and stops on the end tag; and however texts are written as the values of attributes, the tag has them
as values. -/
theorem written_texts_read (extended : Bool) :
    (∀ lead name attributes text content rest source, BehindStartTag extended lead name attributes →
      IsTagName name → Writes text.toList content.toList →
      let document := lead ++ content ++ "</" ++ name ++ ">" ++ rest
      ∃ before opening inside closing after,
        (tokenize extended document).tokens = before ++ opening :: (inside ++ closing :: after) ∧
        (before ++ [opening]).map (·.kind) = (scanned extended lead).shown ∧
        opening.kind = .opening name attributes ∧ closing.kind = .closing name ∧
        let cursor := (Cursor.ofDocument extended document source).onto opening
          (inside ++ closing :: after)
        cursor.nextText = (.ok text, cursor.onto closing after)) ∧
    ∀ lead name row attributes tail ending rest source, TagCanBegin extended lead → IsTagName name →
      SpellsAttributes row attributes → (∀ c ∈ tail.toList, isTagBlank c = true) →
      ending ∈ [">", "/>"] →
      let document := lead ++ "<" ++ tagText name row tail ++ ending ++ rest
      ∃ before opening after,
        (tokenize extended document).tokens = before ++ opening :: after ∧
        before.map (·.kind) = ((scanned extended lead).step '<').shown ∧
        opening.kind = .opening name attributes ∧
        let cursor := (Cursor.ofDocument extended document source).onto opening after
        cursor.current.attributes = attributes ∧
        ∀ pair ∈ attributes, cursor.attribute? pair.1 = some pair.2 := by
  constructor
  · intro lead name attributes text content rest source behind isTagName writes
    exact nextText_of_writes behind isTagName writes rest source
  · intro lead name row attributes tail ending rest source begins isTagName spells blank ends
    exact attributes_of_spells begins isTagName spells blank ends rest source

private theorem mixture_writes :
    Writes "a<&<&>".toList "a&lt;&#038;<![CDATA[<&]]><!-- - --><?b?>&#x3E;".toList := by
  have textEq : "a<&<&>".toList = 'a' :: '<' :: '&' :: (['<', '&'] ++ ['>']) := by decide
  have contentEq : "a&lt;&#038;<![CDATA[<&]]><!-- - --><?b?>&#x3E;".toList =
      ['a'] ++ (('&' :: (['l', 't'] ++ [';'])) ++ (('&' :: ('#' :: ['0', '3', '8'] ++ [';'])) ++
        ("<![CDATA[".toList ++ ['<', '&'] ++ "]]>".toList ++ (("<!--" ++ " - " ++ "-->").toList ++
          (("<?" ++ "b" ++ "?>").toList ++ (('&' :: ('#' :: 'x' :: ['3', 'E'] ++ [';'])) ++ [])))))) := by
    decide
  have ampersand : IsNumeral 10 ['0', '3', '8'] '&'.toNat :=
    ⟨[0, 3, 8], .cons (by decide) (.cons (by decide) (.cons (by decide) .nil)), by decide⟩
  have greater : IsNumeral 16 ['3', 'E'] '>'.toNat :=
    ⟨[3, 14], .cons (by decide) (.cons (by decide) .nil), by decide⟩
  have behindRaw : Writes ['>'] _ := .remark (.comment " - " (by decide))
    (.remark (.instruction "b" (by decide) (by decide))
      (.character (.hexadecimal greater (by decide) (by decide)) .nil))
  rw [textEq, contentEq]
  exact .character (.plain (by decide)) (.character (.named rfl)
    (.character (.decimal ampersand (by decide) (by decide)) (.raw _ (by decide) behindRaw)))

/-- The text of an element and the value of an attribute, written in other ways, are read as they
are. -/
theorem mixture_read :
    let document := "<a>" ++ "a&lt;&#038;<![CDATA[<&]]><!-- - --><?b?>&#x3E;" ++ "</" ++ "a" ++ ">" ++ ""
    let document' := "" ++ "<" ++ tagText "a" [⟨" ", "b", "", " ", '\'', "\"&#60;&apos;"⟩] "" ++ "/>" ++ ""
    BehindStartTag true "<a>" "a" [] ∧ TagCanBegin true "" ∧
    (∃ before opening inside closing after,
      (tokenize true document).tokens = before ++ opening :: (inside ++ closing :: after) ∧
      ((Cursor.ofDocument true document none).onto opening (inside ++ closing :: after)).nextText.1 =
        .ok "a<&<&>") ∧
    ∃ before opening after, (tokenize true document').tokens = before ++ opening :: after ∧
      ((Cursor.ofDocument true document' none).onto opening after).attribute? "b" = some "\"<'" := by
  intro document document'
  have behind : BehindStartTag true "<a>" "a" [] :=
    ⟨[], [], by decide +kernel, by decide +kernel, by decide +kernel, by decide +kernel⟩
  have begins : TagCanBegin true "" := by
    rw [TagCanBegin]
    decide +kernel
  have isTagName : IsTagName "a" := isTagName_of_isName (by decide +kernel)
  have less : IsNumeral 10 ['6', '0'] '<'.toNat :=
    ⟨[6, 0], .cons (by decide) (.cons (by decide) .nil), by decide⟩
  have value : SpellsText ['&', '<', '\''] "\"<'".toList "\"&#60;&apos;".toList := by
    have textEq : "\"<'".toList = ['"', '<', '\''] := by decide
    have valueEq : "\"&#60;&apos;".toList = ['"'] ++ (('&' :: ('#' :: ['6', '0'] ++ [';'])) ++
        (('&' :: (['a', 'p', 'o', 's'] ++ [';'])) ++ [])) := by
      decide
    rw [textEq, valueEq]
    exact .cons (.plain (by decide)) (.cons (.decimal less (by decide) (by decide))
      (.cons (.named rfl) .nil))
  have spells : SpellsAttributes [⟨" ", "b", "", " ", '\'', "\"&#60;&apos;"⟩] [("b", "\"<'")] := by
    refine ⟨?_, List.nodup_singleton _, .cons ⟨rfl, value⟩ .nil⟩
    rw [List.forall_mem_singleton]
    constructor <;> simp [isTagBlank]
  obtain ⟨texts, attributes⟩ := written_texts_read true
  obtain ⟨before, opening, inside, closing, after, tokensEq, _, _, _, read⟩ :=
    texts "<a>" "a" [] _ _ "" none behind isTagName mixture_writes
  obtain ⟨before', opening', after', tokensEq', _, _, _, found⟩ :=
    attributes "" "a" _ _ "" "/>" "" none begins isTagName spells (by simp) (by decide)
  exact ⟨behind, begins, ⟨before, opening, inside, closing, after, tokensEq, congrArg Prod.fst read⟩,
    before', opening', after', tokensEq', found _ List.mem_cons_self⟩

/-- A number with more digits than the largest one has is refused, although it is that of a
character, and so is an instruction without anything in it. -/
theorem unusual_spellings_refused :
    let refuses document error := ∃ opening, (tokenize true document).tokens = [opening] ∧
      opening.kind = .opening "a" [] ∧
      ((Cursor.ofDocument true document none).onto opening []).nextText.1 = .error (.markup error)
    IsNumeral 10 "00000065".toList 'A'.toNat ∧ IsNumeral 16 "0000041".toList 'A'.toNat ∧
    refuses "<a>&#00000065;</a>" (.reference .longDecimal) ∧
    refuses "<a>&#x0000041;</a>" (.reference .longHexadecimal) ∧
    refuses "<a><??>A</a>" (.unfinished .declaration) := by
  intro refuses
  have decimal : IsNumeral 10 "00000065".toList 'A'.toNat := by
    refine ⟨[0, 0, 0, 0, 0, 0, 6, 5], ?_, by decide⟩
    have digitsEq : "00000065".toList = ['0', '0', '0', '0', '0', '0', '6', '5'] := by decide
    rw [digitsEq]
    simp only [List.forall₂_cons, List.forall₂_nil_left_iff, and_true]
    decide
  have hexadecimal : IsNumeral 16 "0000041".toList 'A'.toNat := by
    refine ⟨[0, 0, 0, 0, 0, 4, 1], ?_, by decide⟩
    have digitsEq : "0000041".toList = ['0', '0', '0', '0', '0', '4', '1'] := by decide
    rw [digitsEq]
    simp only [List.forall₂_cons, List.forall₂_nil_left_iff, and_true]
    decide
  have refused {document : String} {error : MarkupError} (streamEq : tokenize true document =
      ⟨[⟨.opening "a" [], ⟨1, 1⟩, "UTF-8"⟩], .failed error⟩) : refuses document error := by
    refine ⟨⟨.opening "a" [], ⟨1, 1⟩, "UTF-8"⟩, by rw [streamEq], rfl, ?_⟩
    simp only [Cursor.nextText, Cursor.onto, Cursor.ofDocument, streamEq, Cursor.nextTextAmong,
      Cursor.endError]
  exact ⟨decimal, hexadecimal, refused (by decide +kernel), refused (by decide +kernel),
    refused (by decide +kernel)⟩

end Trellis.Reading
