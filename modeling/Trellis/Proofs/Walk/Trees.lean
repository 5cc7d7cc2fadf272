import Trellis.Proofs.Markup.Attributes
import Trellis.Proofs.Markup.Passages
import Trellis.Proofs.Walk.Agreement
import Trellis.Proofs.Walk.Consumption

/-!
The tree of an element.

The tokens inside an element are its own texts and the elements in it, each with a start tag, the
tokens inside it and an end tag.  The tree of the element has the name and the attributes of the start
tag, a tree for each element in it, made by the same rule, and the joined texts without the blanks at
their ends.
-/

namespace Trellis.Reading

open Trellis.Graph (Tree)
open Markup
open Text (isBlank)

/-! ### Texts without the blanks at their ends -/

structure IsSolid (text : String) : Prop where
  filled : text ≠ ""
  first : ∀ c, text.toList.head? = some c → isBlank c = false
  last : ∀ c, text.toList.getLast? = some c → isBlank c = false

private theorem isSolid_iff {text : String} : IsSolid text ↔ text ≠ "" ∧
    text.toList.head?.all (!isBlank ·) = true ∧ text.toList.getLast?.all (!isBlank ·) = true := by
  simp only [Option.all_eq_true, Bool.not_eq_true']
  exact ⟨fun ⟨filled, first, last⟩ => ⟨filled, first, last⟩,
    fun ⟨filled, first, last⟩ => ⟨filled, first, last⟩⟩

instance (text : String) : Decidable (IsSolid text) :=
  decidable_of_iff' _ isSolid_iff

/-- The value of an element with the joined texts: there is none if these are blank, and otherwise the
blanks at their ends do not belong to it. -/
inductive IsValue (text : String) : Option String → Prop
  | blank (blank : ∀ c ∈ text.toList, isBlank c = true) : IsValue text none
  | solid {before value after : String} (textEq : text = before ++ value ++ after)
      (blankBefore : ∀ c ∈ before.toList, isBlank c = true)
      (blankAfter : ∀ c ∈ after.toList, isBlank c = true) (isSolid : IsSolid value) :
      IsValue text (some value)

private theorem trimStart_of_blank {before rest : List Char} (blank : ∀ c ∈ before, isBlank c = true) :
    Text.trimStart (before ++ rest) = Text.trimStart rest :=
  List.dropWhile_append_of_pos blank

private theorem trimStart_of_solid {text : List Char}
    (solid : ∀ c, text.head? = some c → isBlank c = false) :
    Text.trimStart text = text := by
  cases text with
  | nil => rfl
  | cons c rest => rw [Text.trimStart, List.dropWhile_cons, solid c rfl]; rfl

private theorem head?_trimStart {text : List Char} {c : Char}
    (first : (Text.trimStart text).head? = some c) :
    isBlank c = false := by
  have notBlank := List.head?_dropWhile_not isBlank text
  rw [Text.trimStart] at first
  rw [first] at notBlank
  exact notBlank

theorem trimChars_of_solid {before text after : List Char} (blankBefore : ∀ c ∈ before, isBlank c = true)
    (blankAfter : ∀ c ∈ after, isBlank c = true)
    (first : ∀ c, text.head? = some c → isBlank c = false)
    (last : ∀ c, text.getLast? = some c → isBlank c = false) :
    Text.trimChars (before ++ text ++ after) = text := by
  have blankReverse : ∀ c ∈ after.reverse, isBlank c = true :=
    fun c member => blankAfter c (List.mem_reverse.1 member)
  rw [Text.trimChars, List.append_assoc, trimStart_of_blank blankBefore]
  cases text with
  | nil =>
      have nothing : Text.trimStart after = [] := Text.trimStart_eq_nil_iff.2 blankAfter
      rw [List.nil_append, nothing]
      rfl
  | cons c rest =>
      have firstSolid : ∀ d, (c :: rest ++ after).head? = some d → isBlank d = false := first
      have lastSolid : ∀ d, (c :: rest).reverse.head? = some d → isBlank d = false := by
        rw [List.head?_reverse]
        exact last
      rw [trimStart_of_solid firstSolid, List.reverse_append, trimStart_of_blank blankReverse,
        trimStart_of_solid lastSolid, List.reverse_reverse]

theorem trimChars_split (text : List Char) :
    ∃ before after, text = before ++ Text.trimChars text ++ after ∧
      (∀ c ∈ before, isBlank c = true) ∧ ∀ c ∈ after, isBlank c = true := by
  have blank (chars : List Char) : ∀ c ∈ chars.takeWhile isBlank, isBlank c = true :=
    List.all_eq_true.1 List.all_takeWhile
  refine ⟨text.takeWhile isBlank, ((Text.trimStart text).reverse.takeWhile isBlank).reverse, ?_,
    blank text, fun c member => blank _ c (List.mem_reverse.1 member)⟩
  have backwards : Text.trimChars text ++ ((Text.trimStart text).reverse.takeWhile isBlank).reverse =
      Text.trimStart text := by
    rw [Text.trimChars, ← List.reverse_append, Text.trimStart.eq_1 (Text.trimStart text).reverse,
      List.takeWhile_append_dropWhile, List.reverse_reverse]
  rw [List.append_assoc, backwards, Text.trimStart, List.takeWhile_append_dropWhile]

theorem isSolid_trim {text : String} (filled : Text.trim text ≠ "") : IsSolid (Text.trim text) := by
  refine ⟨filled, ?_, ?_⟩
  · intro c first
    rw [Text.trim, String.toList_ofList, Text.trimChars] at first
    obtain ⟨after, split⟩ : Text.trimChars text.toList <+: Text.trimStart text.toList := by
      rw [Text.trimChars, ← List.reverse_suffix, List.reverse_reverse]
      exact List.dropWhile_suffix _
    have firstOfText : (Text.trimStart text.toList).head? = some c := by
      rw [← split, List.head?_append]
      exact Option.or_eq_some_iff.2 (.inl first)
    exact head?_trimStart firstOfText
  · intro c last
    rw [Text.trim, String.toList_ofList, Text.trimChars, List.getLast?_reverse] at last
    exact head?_trimStart last

theorem isValue_iff {text : String} {value : Option String} :
    IsValue text value ↔
      value = if (Text.trim text).isEmpty then none else some (Text.trim text) := by
  obtain ⟨before, after, textEq, blankBefore, blankAfter⟩ := trimChars_split text.toList
  constructor
  · intro isValue
    cases isValue with
    | blank blank =>
        have nothing := @trimChars_of_solid _ [] [] blank nofun nofun nofun
        rw [List.append_nil, List.append_nil] at nothing
        rw [Text.trim, nothing]
        rfl
    | @solid before value after textEq blankBefore blankAfter isSolid =>
        have charsEq := trimChars_of_solid blankBefore blankAfter isSolid.first isSolid.last
        have trimEq : Text.trim text = value := by
          rw [Text.trim, textEq, String.toList_append, String.toList_append, charsEq,
            String.ofList_toList]
        rw [trimEq, if_neg (mt String.isEmpty_iff.1 isSolid.filled)]
  · rintro rfl
    split
    · rename_i empty
      have nothing : Text.trimChars text.toList = [] := by
        have trimmed := String.toList_eq_nil_iff.2 (String.isEmpty_iff.1 empty)
        rwa [Text.trim, String.toList_ofList] at trimmed
      rw [nothing, List.append_nil] at textEq
      refine .blank ?_
      rw [textEq]
      exact List.forall_mem_append.2 ⟨blankBefore, blankAfter⟩
    · rename_i filled
      refine @IsValue.solid _ (String.ofList before) _ (String.ofList after) ?_ ?_ ?_
        (isSolid_trim (mt String.isEmpty_iff.2 filled))
      · rw [← String.toList_inj]
        simp only [String.toList_append, String.toList_ofList, Text.trim]
        exact textEq
      · rw [String.toList_ofList]
        exact blankBefore
      · rw [String.toList_ofList]
        exact blankAfter

/-! ### Trees of tokens -/

/-- The tokens inside an element are its own texts, in this order, and elements with these trees. -/
inductive Depicts : List TokenKind → List String → List Tree → Prop
  | nil : Depicts [] [] []
  | text {content : String} {rest : List TokenKind} {texts : List String} {children : List Tree}
      (depicts : Depicts rest texts children) :
      Depicts (.text content :: rest) (content :: texts) children
  | element {name closingName : String} {attributes : List (String × String)} {value : Option String}
      {inside rest : List TokenKind} {own texts : List String} {grandchildren children : List Tree}
      (inner : Depicts inside own grandchildren) (isValue : IsValue (String.join own) value)
      (depicts : Depicts rest texts children) :
      Depicts (.opening name attributes :: inside ++ .closing closingName :: rest) texts
        (.mk name attributes value grandchildren :: children)

theorem exists_depicts {content : Content} {tokens : List Token} {closing : Token}
    (spans : content.Spans tokens closing) :
    ∃ texts children, Depicts (tokens.map (·.kind)) texts children := by
  induction spans with
  | closed _ => exact ⟨[], [], .nil⟩
  | text kind _ ih =>
      obtain ⟨texts, children, depicts⟩ := ih
      rw [List.map_cons, kind]
      exact ⟨_, _, .text depicts⟩
  | element kind inner _ ihInside ihRest =>
      obtain ⟨own, grandchildren, inside⟩ := ihInside
      obtain ⟨texts, children, depicts⟩ := ihRest
      obtain ⟨closingName, closingKind⟩ := inner.closing_kind
      rw [List.cons_append, List.map_cons, List.map_append, List.map_cons, kind, closingKind]
      exact ⟨_, _, .element inside (isValue_iff.2 rfl) depicts⟩

theorem partsOf_of_depicts {kinds : List TokenKind} {texts : List String} {children : List Tree}
    (depicts : Depicts kinds texts children) {tokens : List Token}
    (kindsEq : tokens.map (·.kind) = kinds) (tidy : ∀ token ∈ tokens, token.kind.Tidy)
    {closing : Token} {name : String} (kind : closing.kind = .closing name) :
    ∃ content, content.Spans tokens closing ∧
      ∀ context : Context, context.partsOf content = .ok (String.join texts, children) := by
  induction depicts generalizing tokens closing name with
  | nil =>
      rw [List.map_eq_nil_iff.1 kindsEq]
      exact ⟨_, .closed kind, fun _ => rfl⟩
  | text _ ih =>
      obtain ⟨token, rest, rfl, tokenKind, restEq⟩ := List.map_eq_cons_iff.1 kindsEq
      obtain ⟨content, spans, parts⟩ := ih restEq (List.forall_mem_cons.1 tidy).2 kind
      refine ⟨_, .text tokenKind spans, ?_⟩
      intro context
      rw [Context.partsOf, parts context, String.join_cons]
      rfl
  | element _ isValue _ ihInside ihRest =>
      rw [List.cons_append] at kindsEq
      obtain ⟨opening, rest, rfl, openingKind, restEq⟩ := List.map_eq_cons_iff.1 kindsEq
      obtain ⟨inside, behind, rfl, insideEq, behindEq⟩ := List.map_eq_append_iff.1 restEq
      obtain ⟨inner, after, rfl, innerKind, afterEq⟩ := List.map_eq_cons_iff.1 behindEq
      rw [List.forall_mem_cons, List.forall_mem_append, List.forall_mem_cons] at tidy
      obtain ⟨tidyOpening, tidyInside, _, tidyAfter⟩ := tidy
      obtain ⟨within, innerSpans, innerParts⟩ := ihInside insideEq tidyInside innerKind
      obtain ⟨later, spans, parts⟩ := ihRest afterEq tidyAfter kind
      rw [openingKind] at tidyOpening
      refine ⟨_, .element openingKind innerSpans spans, ?_⟩
      intro context
      rw [Context.partsOf, innerParts context, parts context]
      simp only [bind, Except.bind, pure, Except.pure, treeOfParts,
        OrderedMap.ofPairs_of_nodup tidyOpening, isValue_iff.1 isValue]

/-! ### Trees of elements -/

variable {context : Context} {extended : Bool} {document : String}
variable {before inside after : List Token} {opening closing : Token}
variable {name closingName : String} {attributes : List (String × String)}

/-- The tree of an element of a document, from its start tag on, is what its tokens depict, and the
cursor is left on its end tag. -/
theorem walkTree_of_depicts
    (tokensEq : (tokenize extended document).tokens = before ++ opening :: (inside ++ closing :: after))
    (openingKind : opening.kind = .opening name attributes)
    (closingKind : closing.kind = .closing closingName) {texts : List String} {children : List Tree}
    {value : Option String} (depicts : Depicts (inside.map (·.kind)) texts children)
    (isValue : IsValue (String.join texts) value) (session : Session) :
    let cursor :=
      (Cursor.ofDocument extended document context.source).onto opening (inside ++ closing :: after)
    walkTree ⟨cursor, session⟩ =
      some (.ok (.mk name attributes value children), ⟨cursor.onto closing after, session⟩) := by
  intro cursor
  have tidy := tidy_tokenize extended document
  rw [tokensEq, List.forall_mem_append, List.forall_mem_cons, List.forall_mem_append] at tidy
  obtain ⟨_, tidyOpening, tidyInside, _⟩ := tidy
  rw [openingKind] at tidyOpening
  obtain ⟨content, spans, parts⟩ := partsOf_of_depicts depicts rfl tidyInside closingKind
  have insideEq : cursor.inside = content := by
    rw [Cursor.inside, Cursor.onto_rest, Content.ofTokens_of_spans spans]
  have stands : (Walker.mk cursor session).cursor.StandsOn context
      ⟨name, attributes, opening.position⟩ content :=
    ⟨rfl, Cursor.tag_onto_of_opening openingKind _ _, insideEq⟩
  have follows := follows_walkTree stands
  have treeEq : context.treeOf ⟨name, attributes, opening.position⟩ content =
      .ok (.mk name attributes value children) := by
    rw [Context.treeOf, parts context]
    simp only [bind, Except.bind, pure, Except.pure, treeOfParts,
      OrderedMap.ofPairs_of_nodup tidyOpening, isValue_iff.1 isValue]
  rw [treeEq] at follows
  obtain ⟨last, ends, walkEq⟩ := follows
  rw [walkEq, ends.eq_onto (Cursor.onto_rest _ _ _) spans.balanced closingKind]

end Trellis.Reading
