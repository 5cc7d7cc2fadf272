import Trellis.Proofs.Walk.Trees
import Trellis.Proofs.Writing.Scanning

/-!
Trees that are written and read again.

A tree is written as an element with its attributes, its value and then the elements of its children.
Names must be names of XML, and a value must be one that a tree of a document can have; then the tree
of the written element is the tree again.
-/

namespace Trellis.Reading

open Trellis.Graph (Tree)
open Markup

mutual

/-- The element that a tree is written as, its value in front of its children, and a row behind it. -/
def elementOf : Tree → Body → Body
  | .mk name attributes value children, rest =>
      .element name attributes (value.getD "") (rowOf children) rest
termination_by structural tree => tree

def rowOf : List Tree → Body
  | [] => .stop
  | tree :: rest => elementOf tree (rowOf rest)
termination_by structural trees => trees

end

def writtenTree (tree : Tree) : String :=
  String.ofList (elementOf tree .stop).chars

inductive AreWritable : List Tree → Prop
  | nil : AreWritable []
  | cons {name : String} {attributes : List (String × String)} {value : Option String}
      {children rest : List Tree} (named : isName name = true)
      (attributesNamed : ∀ pair ∈ attributes, isName pair.1 = true)
      (distinct : (attributes.map Prod.fst).Nodup) (solid : ∀ text, value = some text → IsSolid text)
      (inside : AreWritable children) (behind : AreWritable rest) :
      AreWritable (.mk name attributes value children :: rest)

theorem AreWritable.wellFormed {trees : List Tree} (writable : AreWritable trees) :
    (rowOf trees).WellFormed := by
  induction writable with
  | nil => exact trivial
  | cons named attributesNamed distinct _ _ _ ihInside ihBehind =>
      exact ⟨named, attributesNamed, distinct, ihInside, ihBehind⟩

private theorem exists_depicts_value {value : Option String}
    (solid : ∀ text, value = some text → IsSolid text)
    {kinds : List TokenKind} {children : List Tree} (depicts : Depicts kinds [] children) :
    ∃ texts, Depicts (Body.textKinds (value.getD "") ++ kinds) texts children ∧
      IsValue (String.join texts) value := by
  cases value with
  | none => exact ⟨[], depicts, .blank nofun⟩
  | some text =>
      have isSolid := solid text rfl
      refine ⟨[text], ?_, @IsValue.solid _ "" text "" ?_ nofun nofun isSolid⟩
      · rw [Option.getD_some, Body.textKinds, if_neg isSolid.filled]
        exact .text depicts
      · rw [String.join_cons, String.join_nil, String.empty_append]

theorem AreWritable.depicts {trees : List Tree} (writable : AreWritable trees) :
    Depicts (rowOf trees).kinds [] trees := by
  induction writable with
  | nil => exact .nil
  | cons _ _ _ solid _ _ ihInside ihBehind =>
      obtain ⟨texts, inner, isValue⟩ := exists_depicts_value solid ihInside
      rw [rowOf, elementOf, Body.kinds, List.cons_append, ← List.cons_append]
      exact .element inner isValue ihBehind

variable {context : Context} {extended : Bool}

/-- What is written for a tree is read as the tree. -/
private theorem walkTree_written {tree : Tree} (writable : AreWritable [tree]) :
    ∃ opening inside closing,
      (tokenize extended (writtenTree tree)).tokens = opening :: (inside ++ [closing]) ∧
      ∀ session,
        let cursor := (Cursor.ofDocument extended (writtenTree tree) context.source).onto opening
          (inside ++ [closing])
        walkTree ⟨cursor, session⟩ = some (.ok tree, ⟨cursor.onto closing [], session⟩) := by
  have wellFormed := writable.wellFormed
  cases writable with
  | @cons name attributes value children _ _ _ _ solid inside _ =>
      rw [rowOf, rowOf, elementOf] at wellFormed
      have kinds := tokenize_element wellFormed extended
      obtain ⟨texts, depicts, isValue⟩ := exists_depicts_value solid inside.depicts
      rw [Body.kinds, Body.kinds, List.cons_append] at kinds
      obtain ⟨opening, rest, tokensEq, openingKind, restEq⟩ := List.map_eq_cons_iff.1 kinds
      obtain ⟨within, last, rfl, withinEq, lastEq⟩ := List.map_eq_append_iff.1 restEq
      obtain ⟨closing, nothing, rfl, closingKind, nothingEq⟩ := List.map_eq_cons_iff.1 lastEq
      rw [List.map_eq_nil_iff.1 nothingEq] at tokensEq
      rw [← withinEq] at depicts
      refine ⟨opening, within, closing, ?_, ?_⟩
      · rw [writtenTree, elementOf]
        exact tokensEq
      · intro session
        rw [writtenTree, elementOf]
        have atStart : (tokenize extended _).tokens = [] ++ opening :: (within ++ closing :: []) := tokensEq
        exact walkTree_of_depicts atStart openingKind closingKind depicts isValue session

/-- The tree of an element of any document has the name and the attributes of the start tag, a tree
for each element inside, made by the same rule, and the joined texts of the element itself, without
the blanks at their ends, as its value, if these have anything else in them.  So a tree that is written
is read as it was. -/
theorem trees_faithful (context : Context) (extended : Bool) :
    (∀ document,
      (∃ read unread shown, withoutMark document.toList = read ++ unread ∧
        Reads extended read shown unread ∧
        (tokenize extended document).tokens.map (·.kind) = shown.map Prod.fst) ∧
      ∀ before opening inside closing after name attributes closingName,
        (tokenize extended document).tokens = before ++ opening :: (inside ++ closing :: after) →
        opening.kind = .opening name attributes → Balanced inside → closing.kind = .closing closingName →
        (∃ texts children value, Depicts (inside.map (·.kind)) texts children ∧
          IsValue (String.join texts) value) ∧
        ∀ texts children value, Depicts (inside.map (·.kind)) texts children →
          IsValue (String.join texts) value → ∀ session,
          let cursor := (Cursor.ofDocument extended document context.source).onto opening
            (inside ++ closing :: after)
          walkTree ⟨cursor, session⟩ =
            some (.ok (.mk name attributes value children), ⟨cursor.onto closing after, session⟩)) ∧
    ∀ tree, AreWritable [tree] →
      ∃ opening inside closing,
        (tokenize extended (writtenTree tree)).tokens = opening :: (inside ++ [closing]) ∧
        ∀ session,
          let cursor := (Cursor.ofDocument extended (writtenTree tree) context.source).onto opening
            (inside ++ [closing])
          walkTree ⟨cursor, session⟩ = some (.ok tree, ⟨cursor.onto closing [], session⟩) := by
  refine ⟨fun document => ⟨tokenize_reads extended document, ?_⟩, fun tree => walkTree_written⟩
  intro before opening inside closing after name attributes closingName tokensEq openingKind balanced
    closingKind
  have spans := Content.spans_of_balanced balanced closingKind (tokenize extended document).ending after
  obtain ⟨texts, children, depicts⟩ := exists_depicts spans
  refine ⟨⟨texts, children, _, depicts, isValue_iff.2 rfl⟩, ?_⟩
  intro texts children value depicts isValue session
  exact walkTree_of_depicts tokensEq openingKind closingKind depicts isValue session

/-- The texts of an element are joined across the elements inside and the signs of a raw text, and a
tree with a value in front of its children is read as it was. -/
theorem trees_faithful_of_mixture :
    let context : Context := ⟨⟨[], "", .asIs, false, none, none⟩, true, none⟩
    let document := "<a x:b='1' xmlns='u'> p<b> in </b><![CDATA[ & ]]>q <c/></a>"
    let tree : Tree := .mk "a" [("x:b", "1")] (some "p & q") [.mk "b" [] none [], .mk "c" [] (some "r") []]
    let treeOf document opening rest :=
      (walkTree ⟨(Cursor.ofDocument true document context.source).onto opening rest, .initial⟩).map
        Prod.fst
    (∃ opening inside closing, (tokenize true document).tokens = opening :: (inside ++ [closing]) ∧
      Balanced inside ∧
      treeOf document opening (inside ++ [closing]) =
        some (.ok (.mk "a" [("x:b", "1"), ("xmlns", "u")] (some "p & q")
          [.mk "b" [] (some "in") [], .mk "c" [] none []]))) ∧
    AreWritable [tree] ∧ writtenTree tree = "<a x:b=\"1\">p &amp; q<b></b><c>r</c></a>" ∧
    ∃ opening inside closing,
      (tokenize true (writtenTree tree)).tokens = opening :: (inside ++ [closing]) ∧
      treeOf (writtenTree tree) opening (inside ++ [closing]) = some (.ok tree) := by
  intro context document tree treeOf
  obtain ⟨documents, trees⟩ := trees_faithful context true
  constructor
  · obtain ⟨inside, insideEq⟩ : ∃ inside : List Token, inside =
        [⟨.text " p", ⟨1, 22⟩, "UTF-8"⟩, ⟨.opening "b" [], ⟨1, 24⟩, "UTF-8"⟩,
          ⟨.text " in ", ⟨1, 27⟩, "UTF-8"⟩, ⟨.closing "b", ⟨1, 31⟩, "UTF-8"⟩,
          ⟨.text " & ", ⟨1, 35⟩, "UTF-8"⟩, ⟨.text "q ", ⟨1, 50⟩, "UTF-8"⟩,
          ⟨.opening "c" [], ⟨1, 52⟩, "UTF-8"⟩, ⟨.closing "c", ⟨1, 56⟩, "UTF-8"⟩] := ⟨_, rfl⟩
    have tokensEq : (tokenize true document).tokens =
        ⟨.opening "a" [("x:b", "1"), ("xmlns", "u")], ⟨1, 1⟩, "UTF-8"⟩ ::
          (inside ++ [⟨.closing "a", ⟨1, 56⟩, "UTF-8"⟩]) := by
      rw [insideEq]
      decide +kernel
    have depicts : Depicts (inside.map (·.kind)) [" p", " & ", "q "]
        [.mk "b" [] (some "in") [], .mk "c" [] none []] := by
      have last := @Depicts.element "c" "c" [] _ _ _ _ _ _ _ .nil (.blank nofun) .nil
      have behind : Depicts [.text " & ", .text "q ", .opening "c" [], .closing "c"] [" & ", "q "]
          [.mk "c" [] none []] := .text (.text last)
      have element := @Depicts.element "b" "b" [] (some "in") _ _ [" in "] _ _ _ (.text .nil)
        (isValue_iff.2 (by decide)) behind
      rw [insideEq]
      exact .text element
    have tidy := tidy_tokenize true document
    rw [tokensEq, List.forall_mem_cons, List.forall_mem_append] at tidy
    have closingKind : (⟨.closing "a", ⟨1, 56⟩, "UTF-8"⟩ : Token).kind = .closing "a" := rfl
    obtain ⟨content, spans, _⟩ := partsOf_of_depicts depicts rfl tidy.2.1 closingKind
    refine ⟨_, inside, _, tokensEq, spans.balanced, ?_⟩
    have read := ((documents document).2 [] _ inside _ [] _ _ _ tokensEq rfl spans.balanced rfl).2 _ _
      (some "p & q") depicts (isValue_iff.2 (by decide)) .initial
    exact congrArg (Option.map Prod.fst) read
  · have solid (text : String) (isSolid : IsSolid text) : ∀ found, some text = some found → IsSolid found := by
      rintro found ⟨⟩
      exact isSolid
    have writable : AreWritable [tree] :=
      .cons (by decide +kernel) (by decide +kernel) (by decide) (solid _ (by decide))
        (.cons (by decide +kernel) nofun .nil nofun .nil
          (.cons (by decide +kernel) nofun .nil (solid _ (by decide)) .nil .nil)) .nil
    obtain ⟨opening, inside, closing, tokensEq, read⟩ := trees tree writable
    exact ⟨writable, by decide +kernel, opening, inside, closing, tokensEq,
      congrArg (Option.map Prod.fst) (read .initial)⟩

end Trellis.Reading
