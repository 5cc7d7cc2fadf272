import Trellis.Proofs.Markup.Tags
import Trellis.Proofs.Writing.Body

/-!
The tokens of a written row of elements.

The scanner is followed along the characters of a row: through names and values inside a tag,
through a text up to the sign of the next tag, and so through element after element.  What it emits
is one start tag, one end tag and at most one text for each element.
-/

namespace Trellis.Markup

open Body (textKinds)

/-! ### Tags as they are written -/

def writtenAttribute (pair : String × String) : WrittenAttribute :=
  ⟨" ", pair.1, "", "", '"', String.ofList (escape pair.2.toList)⟩

private theorem toList_attributesText (attributes : List (String × String)) :
    (attributesText (attributes.map writtenAttribute)).toList = attributes.flatMap attributeChars := by
  induction attributes with
  | nil => rfl
  | cons pair rest ih =>
      rw [List.map_cons, attributesText, String.toList_append, ih, List.flatMap_cons,
        WrittenAttribute.toList_text]
      simp [writtenAttribute, attributeChars]

private theorem tagText_written (name : String) (attributes : List (String × String)) :
    (tagText name (attributes.map writtenAttribute) "").toList = tagChars name attributes := by
  rw [toList_tagText, toList_attributesText, String.toList_empty, List.append_nil, tagChars]

theorem isTagName_of_isName {name : String} (named : isName name = true) : IsTagName name := by
  have word := isWord_of_isName named
  constructor
  · exact word.filled
  · intro c first
    have member := List.mem_of_mem_head? first
    simp only [List.mem_cons, List.not_mem_nil, or_false, not_or]
    exact ⟨word.ne member (by decide), word.ne member (by decide)⟩
  · intro c member
    simp only [List.mem_cons, List.not_mem_nil, or_false, not_or]
    exact ⟨word.not_isTagBlank member, word.ne member (by decide), word.ne member (by decide),
      word.ne member (by decide), word.ne member (by decide)⟩

section Attributes

variable {attributes : List (String × String)} (named : ∀ pair ∈ attributes, isName pair.1 = true)
include named

private theorem wellFormed_written :
    ∀ written ∈ attributes.map writtenAttribute, written.WellFormed := by
  intro written member
  obtain ⟨pair, isPair, rfl⟩ := List.mem_map.1 member
  have word := isWord_of_isName (named pair isPair)
  refine ⟨by simp [writtenAttribute], by simp [writtenAttribute, isTagBlank], word.filled, ?_,
    by simp [writtenAttribute], by simp [writtenAttribute], List.mem_cons_self, ?_⟩
  · intro c inName
    simp only [List.mem_cons, List.not_mem_nil, or_false, not_or]
    exact ⟨word.not_isTagBlank inName, word.ne inName (by decide), word.ne inName (by decide),
      word.ne inName (by decide), word.ne inName (by decide)⟩
  · intro c inValue
    rw [writtenAttribute, String.toList_ofList] at inValue
    exact (mem_escape inValue).2.2

private theorem isTag_written {name : String} (nameNamed : isName name = true) :
    IsTag (tagText name (attributes.map writtenAttribute) "") :=
  isTag_tagText (isTagName_of_isName nameNamed) (wellFormed_written named) (by simp)

private theorem tagAttributes_written {name : String} (nameNamed : isName name = true)
    (distinct : (attributes.map Prod.fst).Nodup) (extended : Bool) :
    tagAttributes extended (tagText name (attributes.map writtenAttribute) "").toList =
      .ok attributes := by
  rw [tagAttributes_tagText (isTagName_of_isName nameNamed) (wellFormed_written named) (by simp),
    decodeAttributes_row (wellFormed_written named) (by simp), List.map_map]
  refine ⟨distinct, List.forall₂_map_left_iff.2 (List.forall₂_same.2 ?_)⟩
  intro pair _
  refine ⟨rfl, ?_⟩
  rw [writtenAttribute, String.toList_ofList, decode_escape]

end Attributes

/-! ### The scanner on written characters -/

namespace Scanner

variable {extended : Bool} {opened : List String} {kinds : List TokenKind} {scanner : Scanner}

private theorem escapeChar_ne_nil (c : Char) : escapeChar c ≠ [] := by
  unfold escapeChar
  split <;> simp

private theorem escape_eq_nil_iff {text : String} : escape text.toList = [] ↔ text = "" := by
  constructor
  · intro empty
    cases charsEq : text.toList with
    | nil => exact String.toList_eq_nil_iff.1 charsEq
    | cons c rest =>
        rw [charsEq] at empty
        exact absurd (List.append_eq_nil_iff.1 empty).1 (escapeChar_ne_nil c)
  · intro empty
    rw [empty]
    rfl

theorem Stands.sign {text : String}
    (stands : scanner.Stands extended opened kinds (.text (escape text.toList).reverse)) :
    (scanner.step '<').Stands extended opened (kinds ++ textKinds text) .tag := by
  have ended := stands.step_sign (decode_escape extended text)
  have shownEq : (runText (escape text.toList) text).toList.map .text = textKinds text := by
    by_cases empty : text = ""
    · rw [empty]
      rfl
    · rw [textKinds, if_neg empty, runText, if_neg]
      · rfl
      · rw [List.isEmpty_iff, escape_eq_nil_iff]
        exact empty
  rwa [shownEq] at ended

theorem Stands.opening (stands : scanner.Stands extended opened kinds .tag) {name : String}
    {attributes : List (String × String)} (nameNamed : isName name = true)
    (named : ∀ pair ∈ attributes, isName pair.1 = true)
    (distinct : (attributes.map Prod.fst).Nodup) :
    ((tagChars name attributes ++ ['>']).foldl Scanner.step scanner).Stands extended (name :: opened)
      (kinds ++ [.opening name attributes]) (.text []) := by
  have behind := stands.startTag (isTag_written named nameNamed)
  rw [tagAttributes_written named nameNamed distinct] at behind
  simp only [tagText_written] at behind
  rwa [← tagText_written, tagName_tagText (isTagName_of_isName nameNamed) (wellFormed_written named)
    (by simp), tagText_written] at behind

theorem Stands.closing {name : String}
    (stands : scanner.Stands extended (name :: opened) kinds .tag)
    (nameNamed : isName name = true) :
    (('/' :: name.toList ++ ['>']).foldl Scanner.step scanner).Stands extended opened
      (kinds ++ [.closing name]) (.text []) := by
  have word := isWord_of_isName nameNamed
  apply stands.endTag
  · apply closingName_of_solid
    intro c member
    exact word.not_isTagBlank member
  · intro member
    exact word.ne member (by decide) rfl

/-! ### Rows -/

/-- A row of elements behind a text, up to the sign of the tag that comes next, is scanned as
written. -/
def ScansBody (body : Body) : Prop :=
  ∀ (extended : Bool) (opened : List String) (kinds : List TokenKind) (scanner : Scanner) (text : String),
    scanner.Stands extended opened kinds (.text (escape text.toList).reverse) →
      ((body.chars ++ ['<']).foldl Scanner.step scanner).Stands extended opened
        (kinds ++ textKinds text ++ body.kinds) .tag

theorem Stands.element {name text : String} {attributes : List (String × String)} {inside : Body}
    (stands : scanner.Stands extended opened kinds (.text (escape text.toList).reverse))
    (inner : String) (nameNamed : isName name = true)
    (named : ∀ pair ∈ attributes, isName pair.1 = true)
    (distinct : (attributes.map Prod.fst).Nodup) (scansInside : ScansBody inside) :
    ((Body.element name attributes inner inside .stop).chars.foldl Scanner.step scanner).Stands extended
      opened (kinds ++ textKinds text ++ (Body.element name attributes inner inside .stop).kinds)
      (.text []) := by
  have behindStart := stands.sign.opening nameNamed named distinct
  have noSign : ∀ c ∈ escape inner.toList, c ≠ '<' := by
    intro c member
    exact (mem_escape member).1
  have behindText := behindStart.foldl_text noSign
  rw [List.append_nil] at behindText
  have behindEnd := (scansInside _ _ _ _ _ behindText).closing nameNamed
  simp only [Body.chars, Body.kinds, List.cons_append, List.append_assoc, List.foldl_cons,
    List.foldl_append, List.foldl_nil, List.nil_append] at behindEnd ⊢
  exact behindEnd

private theorem scansBody {body : Body} (wellFormed : body.WellFormed) : ScansBody body := by
  induction body with
  | stop =>
      intro extended opened kinds scanner text stands
      rw [Body.kinds, List.append_nil]
      exact stands.sign
  | element name attributes inner inside rest ihInside ihRest =>
      intro extended opened kinds scanner text stands
      obtain ⟨nameNamed, named, distinct, insideFormed, restFormed⟩ := wellFormed
      have behindElement := stands.element inner nameNamed named distinct (ihInside insideFormed)
      have behindRest := ihRest restFormed _ _ _ _ "" behindElement
      simp only [Body.chars, Body.kinds, List.cons_append, List.append_assoc, List.foldl_cons,
        List.foldl_append, List.foldl_nil, List.nil_append, textKinds] at behindRest ⊢
      exact behindRest

theorem Stands.finish (stands : scanner.Stands extended opened kinds (.text [])) :
    scanner.finish.tokens.map (·.kind) = kinds := by
  have modeEq := stands.mode_eq
  unfold Scanner.finish
  simp only [modeEq, Scanner.endText, List.isEmpty_nil, if_true, Scanner.finishedAt, Scanner.ended]
  exact stands.shown_eq

end Scanner

/-- The tokens of a document that is one written element. -/
theorem tokenize_element {name text : String} {attributes : List (String × String)} {inside : Body}
    (wellFormed : (Body.element name attributes text inside .stop).WellFormed) (extended : Bool) :
    (tokenize extended (String.ofList (Body.element name attributes text inside .stop).chars)).tokens.map
      (·.kind) = (Body.element name attributes text inside .stop).kinds := by
  obtain ⟨nameNamed, named, distinct, insideFormed, _⟩ := wellFormed
  generalize charsEq : (Body.element name attributes text inside .stop).chars = chars
  have noMark : withoutMark chars = chars := by
    rw [← charsEq]
    rfl
  have start : (Scanner.ofSource extended chars).Stands extended [] [] (.text (escape "".toList).reverse) :=
    ⟨rfl, rfl, rfl, rfl⟩
  have done := start.element text nameNamed named distinct (Scanner.scansBody insideFormed)
  rw [charsEq] at done
  unfold tokenize
  simp only [String.toList_ofList, noMark]
  exact done.finish

end Trellis.Markup
