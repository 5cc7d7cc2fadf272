import Mathlib.Logic.Relation
import Trellis.Proofs.Markup.Rows
import Trellis.Proofs.Markup.TagOrders
import Trellis.Proofs.Reading.ForeignContent
import Trellis.Proofs.Reading.Orders

/-!
Reads of documents with attributes and child elements in other orders.

The attributes of any tag may be put into any order, and so may the child elements of any entity that
has no content field, as long as the items of one list or set without an element of its own follow one
another as before.  The root that is read is the same, but for identities and the orders of fields.
-/

namespace Trellis.Reading

open Markup (Child Document Gap IsElement IsFiller IsTagName Permutes RowPart RowsPermute TagEnd
  WrittenAttribute attributesText rowText scanned tagText)
open Markup.Content (Rearranges)
open Schema (Layout)

/-- The second document is, as it may be written elsewhere, the first one with the attributes of tags
in other orders, or with the child elements of an entity in another order. -/
inductive Reorders (schema : Schema) (className : String) (extended : Bool) : String → String → Prop
  | attributes {document document' : String}
      (resembles : (Document.parse extended document).Resembles (.parse extended document')) :
      Reorders schema className extended document document'
  | children {document document' : String} {path : List String} {layout : Layout}
      (leads : Leads schema className path (.entity layout))
      (rearranged : (Document.parse extended document).Edited (Rearranges layout.itemsField?) path
        (.parse extended document')) :
      Reorders schema className extended document document'

section Texts

variable {schema : Schema} {className : String} {extended : Bool}

theorem Reorders.tag {front name tail : String} {row row' : List WrittenAttribute}
    (inText : ∃ taken, (scanned extended front).mode = .text taken) (isTagName : IsTagName name)
    (wellFormed : ∀ written ∈ row, written.WellFormed) (perm : row.Perm row')
    (blank : ∀ c ∈ tail.toList, Markup.isTagBlank c = true) (tagEnd : TagEnd) (back : String) :
    Reorders schema className extended
      (front ++ ("<" ++ tagText name row tail ++ tagEnd.text) ++ back)
      (front ++ ("<" ++ tagText name row' tail ++ tagEnd.text) ++ back) :=
  .attributes (Markup.parse_attributes isTagName wellFormed perm blank inText tagEnd back)

theorem Reorders.row {lead : String} {path : List String} {layout : Layout}
    (gap : Gap extended lead "" path) (leads : Leads schema className path (.entity layout))
    {row row' : List RowPart} (wellFormed : ∀ part ∈ row, part.WellFormed extended)
    (permute : RowsPermute layout.itemsField? row row') (after : String) :
    Reorders schema className extended (lead ++ rowText row ++ after)
      (lead ++ rowText row' ++ after) :=
  .children leads (gap.parse_row wellFormed permute after)

end Texts

/-- The order in which attributes and children of different fields stand makes no difference: a
document that can be read can be read in any other order, and comes to the same root but for identities
and orders of fields.  The two roots are equal unless there is a number in them that is none. -/
theorem order_ignored {schema : Schema} (distinct : DistinctFields schema) {options : Options}
    {className document document' : String}
    (reordered : Relation.ReflTransGen (Reorders schema className options.extended) document document')
    (source : Option Source) {graph : ObjectGraph}
    (reads : (Reader.mk schema options).readAs className document source = .ok graph) :
    ∃ graph', (Reader.mk schema options).readAs className document' source = .ok graph' ∧
      graph.root.Same graph'.root ∧
      graph'.root.equal graph.root = graph.root.equal graph.root := by
  have same : ∃ graph', (Reader.mk schema options).readAs className document' source = .ok graph' ∧
      graph.root.Same graph'.root := by
    induction reordered with
    | refl => exact ⟨graph, reads, .refl graph.root⟩
    | tail _ reorders ih =>
        obtain ⟨between, betweenReads, betweenSame⟩ := ih
        cases reorders with
        | attributes resembles =>
            obtain ⟨graph', reads', rootSame⟩ :=
              readDocument_resembles distinct resembles between betweenReads
            exact ⟨graph', reads', betweenSame.trans rootSame⟩
        | children leads rearranged =>
            obtain ⟨graph', reads', rootSame⟩ :=
              readDocument_rearranged distinct leads rearranged between betweenReads
            exact ⟨graph', reads', betweenSame.trans rootSame⟩
  obtain ⟨graph', reads', rootSame⟩ := same
  exact ⟨graph', reads', rootSame, rootSame.equal_eq⟩

def shelf : Schema.Declarations where
  classes := [
    { name := "Shelf"
      fields := [
        { name := "label", kind := .scalar .text },
        { name := "books", kind := .many .list (.entity "Book") false }] },
    { name := "Book"
      fields := [
        { name := "title", kind := .scalar .text, isAttribute := true },
        { name := "pages", kind := .scalar .text, isAttribute := true }] }]
  roots := ["Shelf"]

private theorem shelf_gap : Gap false "<shelf>" "" [] where
  mode_eq := by decide +kernel
  stands := by
    have tokens : (scanned false "<shelf>").emitted.reverse =
        [⟨.opening "shelf" [], ⟨1, 1⟩, "UTF-8"⟩] := by
      decide +kernel
    rw [tokens]
    exact ⟨[], _, _, rfl, nofun, ⟨_, _, rfl⟩, rfl⟩
  noSign := noSign_of_all (by decide +kernel)
  decodes := ⟨"", eq_ok_of_toOption (by decide +kernel)⟩

def titleAndPages (title pages : String) : List WrittenAttribute :=
  [⟨" ", "title", "", "", '"', title⟩, ⟨" ", "pages", "", " ", '\'', pages⟩]

private theorem titleAndPages_wellFormed :
    ∀ written ∈ titleAndPages "A" "1", written.WellFormed := by
  intro written member
  simp only [titleAndPages, List.mem_cons, List.not_mem_nil, or_false] at member
  rcases member with rfl | rfl
  all_goals constructor <;> simp [Markup.isTagBlank]

def shelfRow : List RowPart :=
  [⟨"", "book", "<book title=\"A\" pages= '1'/>"⟩, ⟨"\n ", "label", "<label>Tall</label>"⟩,
    ⟨"\n ", "book", "<book title=\"B\" pages=\"2\"/>"⟩]

def shelfRowLabelFirst : List RowPart :=
  [⟨"\n ", "label", "<label>Tall</label>"⟩, ⟨"", "book", "<book title=\"A\" pages= '1'/>"⟩,
    ⟨"\n ", "book", "<book title=\"B\" pages=\"2\"/>"⟩]

private theorem shelfRow_wellFormed : ∀ part ∈ shelfRow, part.WellFormed false := by
  have noFiller : IsFiller false "" := ⟨by decide +kernel, by decide +kernel, nofun⟩
  have line : IsFiller false "\n " := by
    refine ⟨by decide +kernel, by decide +kernel, ?_⟩
    have tokens : (Markup.signed false "\n ").emitted.reverse =
        [⟨.text "\n ", ⟨1, 1⟩, "UTF-8"⟩] := by
      decide +kernel
    rw [tokens]
    intro token member
    cases List.mem_singleton.1 member
    exact ⟨_, rfl⟩
  have first : IsElement false "book" "<book title=\"A\" pages= '1'/>" := by
    refine ⟨⟨'b', _, rfl, by decide⟩, by decide +kernel, by decide +kernel, ?_⟩
    have tokens : (scanned false "<book title=\"A\" pages= '1'/>").emitted.reverse =
        [⟨.opening "book" [("title", "A"), ("pages", "1")], ⟨1, 1⟩, "UTF-8"⟩,
          ⟨.closing "book", ⟨1, 29⟩, "UTF-8"⟩] := by
      decide +kernel
    exact ⟨_, [], _, _, tokens, rfl, .nil, rfl⟩
  have second : IsElement false "book" "<book title=\"B\" pages=\"2\"/>" := by
    refine ⟨⟨'b', _, rfl, by decide⟩, by decide +kernel, by decide +kernel, ?_⟩
    have tokens : (scanned false "<book title=\"B\" pages=\"2\"/>").emitted.reverse =
        [⟨.opening "book" [("title", "B"), ("pages", "2")], ⟨1, 1⟩, "UTF-8"⟩,
          ⟨.closing "book", ⟨1, 28⟩, "UTF-8"⟩] := by
      decide +kernel
    exact ⟨_, [], _, _, tokens, rfl, .nil, rfl⟩
  have label : IsElement false "label" "<label>Tall</label>" := by
    refine ⟨⟨'l', _, rfl, by decide⟩, by decide +kernel, by decide +kernel, ?_⟩
    have tokens : (scanned false "<label>Tall</label>").emitted.reverse =
        [⟨.opening "label" [], ⟨1, 1⟩, "UTF-8"⟩, ⟨.text "Tall", ⟨1, 8⟩, "UTF-8"⟩,
          ⟨.closing "label", ⟨1, 12⟩, "UTF-8"⟩] := by
      decide +kernel
    exact ⟨_, [_], _, _, tokens, rfl, .text rfl .nil, rfl⟩
  intro part member
  simp only [shelfRow, List.mem_cons, List.not_mem_nil, or_false] at member
  rcases member with rfl | rfl | rfl
  · exact ⟨noFiller, first⟩
  · exact ⟨line, label⟩
  · exact ⟨line, second⟩

/-- A label that is no item of a list may stand in front of the books. -/
private theorem shelfRow_permute {layout : Layout} (single : layout.itemsField? "label" = none) :
    RowsPermute layout.itemsField? shelfRow shelfRowLabelFirst where
  fillers := .swap _ _ _
  elements := by
    refine ⟨.swap _ _ _, ?_⟩
    intro key
    simp only [shelfRow, shelfRowLabelFirst, RowPart.named, List.map_cons, List.map_nil,
      List.filter_cons, List.filter_nil, single, reduceCtorEq, decide_false, Bool.false_eq_true,
      if_false]

/-- A shelf is read as one with its label in front of its books, and with the pages of the first
book in front of its title. -/
theorem shelf_order_ignored :
    let original := "<shelf><book title=\"A\" pages= '1'/>\n <label>Tall</label>" ++
      "\n <book title=\"B\" pages=\"2\"/></shelf>"
    let reordered := "<shelf>\n <label>Tall</label><book pages= '1' title=\"A\"/>" ++
      "\n <book title=\"B\" pages=\"2\"/></shelf>"
    ∃ schema, shelf.build = .ok schema ∧
      let read (document : String) :=
        (Reader.mk schema ⟨true, false⟩).readAs schema.root document none
      ∃ graph graph', read original = .ok graph ∧ read reordered = .ok graph' ∧
        graph.root.Same graph'.root ∧
        graph'.root.equal graph.root = graph.root.equal graph.root := by
  intro original reordered
  have checked : shelf.build.toOption.any (fun schema =>
      decide (DistinctFields schema) &&
        ((Reader.mk schema ⟨true, false⟩).readAs schema.root original none).toOption.isSome &&
        (entityRole? schema schema.root).isSome &&
        (schema.layout? schema.root).all fun layout => (layout.itemsField? "label").isNone) =
      true := by
    decide +kernel
  obtain ⟨schema, built, checked⟩ := Schema.exists_built checked
  simp only [Bool.and_eq_true, decide_eq_true_eq, Option.isSome_iff_exists] at checked
  obtain ⟨⟨⟨distinct, graph, reads⟩, role, roleEq⟩, ordered⟩ := checked
  obtain ⟨layout, layoutEq, _, rfl⟩ := entityRole?_eq_some_iff.1 roleEq
  rw [layoutEq, Option.all_some, Option.isNone_iff_eq_none] at ordered
  let front := "<shelf>\n <label>Tall</label>"
  let back := "\n <book title=\"B\" pages=\"2\"/></shelf>"
  have originalEq : "<shelf>" ++ rowText shelfRow ++ "</shelf>" = original := by
    decide +kernel
  have betweenEq : "<shelf>" ++ rowText shelfRowLabelFirst ++ "</shelf>" =
      front ++ ("<" ++ tagText "book" (titleAndPages "A" "1") "" ++ "/>") ++ back := by
    decide +kernel
  have reorderedEq : front ++ ("<" ++ tagText "book" (titleAndPages "A" "1").reverse "" ++ "/>") ++
      back = reordered := by
    decide +kernel
  have labelFirst : Reorders schema schema.root false
      ("<shelf>" ++ rowText shelfRow ++ "</shelf>")
      ("<shelf>" ++ rowText shelfRowLabelFirst ++ "</shelf>") :=
    .row shelf_gap ⟨_, roleEq, rfl⟩ shelfRow_wellFormed (shelfRow_permute ordered) "</shelf>"
  have pagesFirst : Reorders schema schema.root false
      (front ++ ("<" ++ tagText "book" (titleAndPages "A" "1") "" ++ "/>") ++ back)
      (front ++ ("<" ++ tagText "book" (titleAndPages "A" "1").reverse "" ++ "/>") ++ back) :=
    .tag ⟨[], by decide +kernel⟩ ⟨by simp, by simp, by simp [Markup.isTagBlank]⟩
      titleAndPages_wellFormed (List.reverse_perm _).symm (by simp) .empty back
  rw [originalEq, betweenEq] at labelFirst
  rw [reorderedEq] at pagesFirst
  obtain ⟨graph', reads', same, equal⟩ := order_ignored distinct
    (.tail (.single labelFirst) pagesFirst) none (eq_ok_of_toOption reads)
  exact ⟨schema, built, graph, graph', eq_ok_of_toOption reads, reads', same, equal⟩

end Trellis.Reading
