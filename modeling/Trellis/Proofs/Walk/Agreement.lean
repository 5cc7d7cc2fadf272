import Trellis.Proofs.Reading.AtHand
import Trellis.Proofs.Reading.Likeness
import Trellis.Proofs.Walk.Following

/-!
Walks and readers of content agree.

A walk that starts on a start tag has the outcome of the reader that is given the content of the
element, and if it succeeds it has gone to the end tag of the element.  So a walk always has an
outcome, and the read of a document is what a walk over its tokens finds.
-/

namespace Trellis.Reading

open Trellis.Graph (Entity Tree Value)
open Markup (Content Tag)
open Schema (Collection Field ItemType MapEncoding ScalarType TaggedField)
open Walk (Follows LoopFollows stopsAtTags_next stopsAtTags_nextTag)

/-! ### Readers without classes -/

variable {context : Context} {walker : Walker} {tag : Tag} {inside : Content}

theorem follows_nextText (stands : walker.cursor.StandsOn context tag inside) :
    Follows (Walk.move Cursor.nextText) (liftM (context.textOf inside)) walker
      walker.cursor.Ends := by
  have completes := Cursor.nextText_completes stands.source_eq
  rw [stands.inside_eq] at completes
  exact Follows.move completes

theorem follows_skipElement (stands : walker.cursor.StandsOn context tag inside) :
    Follows (Walk.move Cursor.skipElement) (liftM (context.passContent inside)) walker
      walker.cursor.Ends := by
  have completes := Cursor.skipElement_completes stands.source_eq
  rw [stands.inside_eq] at completes
  exact Follows.move completes

def partsAfter (text : String) (children : List Tree) (found : String × List Tree) :
    String × List Tree :=
  (text ++ found.1, children ++ found.2)

private theorem partsOf_text_after (position : Position) (content text : String) (children : List Tree)
    (rest : Content) :
    partsAfter text children <$> context.partsOf (.text position content rest) =
      partsAfter (text ++ content) children <$> context.partsOf rest := by
  simp only [Context.partsOf]
  cases context.partsOf rest with
  | error error => rfl
  | ok found =>
      change Except.ok (text ++ (content ++ found.1), children ++ found.2) =
        Except.ok (text ++ content ++ found.1, children ++ found.2)
      rw [String.append_assoc]

private theorem partsOf_element_after (tag : Tag) (text : String) (children : List Tree)
    (within rest : Content) :
    partsAfter text children <$> context.partsOf (.element tag within rest) =
      context.treeOf tag within >>= fun child =>
        partsAfter text (children ++ [child]) <$> context.partsOf rest := by
  simp only [Context.partsOf, Context.treeOf]
  cases context.partsOf within with
  | error error => rfl
  | ok inner =>
      cases context.partsOf rest with
      | error error => rfl
      | ok found =>
          change Except.ok (text ++ found.1, children ++ (treeOfParts tag inner.1 inner.2 :: found.2)) =
            Except.ok (text ++ found.1,
              children ++ [treeOfParts tag inner.1 inner.2] ++ found.2)
          rw [List.append_assoc, List.singleton_append]

/-! ### Trees -/

private theorem treeOf_eq_after (context : Context) (tag : Tag) (inside : Content) :
    context.treeOf tag inside =
      (partsAfter "" [] <$> context.partsOf inside) >>= fun found =>
        pure (treeOfParts tag found.1 found.2) := by
  rw [Context.treeOf]
  cases context.partsOf inside with
  | error error => rfl
  | ok found =>
      change Except.ok (treeOfParts tag found.1 found.2) =
        Except.ok (treeOfParts tag ("" ++ found.1) ([] ++ found.2))
      rw [String.empty_append, List.nil_append]

private theorem follows_tree (stands : walker.cursor.StandsOn context tag inside)
    {parts : Walk (String × List Tree)}
    (partsAgree : Follows parts (liftM (partsAfter "" [] <$> context.partsOf inside)) walker
      walker.cursor.Ends) :
    Follows (Walk.tokens.tree parts) (liftM (context.treeOf tag inside)) walker
      walker.cursor.Ends := by
  rw [treeOf_eq_after, Read.lift_bind]
  apply Follows.look
  rw [stands.tag_eq]
  apply partsAgree.bind
  intro found last session lastEnds
  exact Follows.of_pure lastEnds

theorem loopFollows_walkParts (content : Content) (text : String) (children : List Tree) :
    LoopFollows context content (fun steps => walkParts steps text children)
      (liftM (partsAfter text children <$> context.partsOf content)) := by
  induction content generalizing text children with
  | closed encoding =>
      have nothingMore : partsAfter text children ("", []) = (text, children) := by
        simp only [partsAfter, String.append_empty, List.append_nil]
      change LoopFollows context _ _ (pure (partsAfter text children ("", [])))
      rw [nothingMore]
      exact LoopFollows.closed stopsAtTags_next (fun _ => rfl) (fun _ => rfl)
  | broken ending => exact LoopFollows.next_broken (fun _ => rfl) (fun _ => rfl)
  | text position found after ih =>
      rw [partsOf_text_after]
      exact LoopFollows.next_text (fun _ => rfl) (fun _ => rfl) (ih (text ++ found) children)
  | element childTag within after ihWithin ihAfter =>
      rw [partsOf_element_after, Read.lift_bind]
      apply LoopFollows.element stopsAtTags_next (fun _ => rfl)
      intro walker steps ends stands enough goesOn
      have parts := ihWithin "" [] walker stands.source_eq stands.inside_eq steps enough
      apply (follows_tree stands parts).bind
      intro child last session lastEnds
      exact goesOn last session lastEnds _ _ (ihAfter text (children ++ [child]))

theorem follows_walkTree (stands : walker.cursor.StandsOn context tag inside) :
    Follows walkTree (liftM (context.treeOf tag inside)) walker walker.cursor.Ends := by
  apply follows_tree stands
  exact (loopFollows_walkParts inside "" []).loop stands

/-! ### The element under the cursor -/

/-- A walk that begins where the first stage says follows the read to where the second says. -/
def following : Likeness Walk Read where
  Stage := Cursor → Prop
  Like here done walk read := ∀ walker : Walker, here walker.cursor → Follows walk read walker done
  of_pure := fun _ _ _ here => Follows.of_pure here
  bind := by
    intro _ _ _ _ _ _ _ _ _ first second walker here
    apply (first walker here).bind
    intro value last session between
    exact second value ⟨last, session⟩ between

variable {cursor : Cursor}

private theorem walking_alike (stands : cursor.StandsOn context tag inside) :
    context.walking.Alike following (context.atHand tag inside) (· = cursor) cursor.Ends where
  context_eq := rfl
  tag := by
    rintro walker rfl
    refine ⟨walker.cursor, rfl, ?_⟩
    rw [← stands.tag_eq]
    rfl
  text := by
    rintro walker rfl
    exact follows_nextText stands
  tree := by
    rintro walker rfl
    exact follows_walkTree stands
  skip := by
    rintro walker rfl
    exact follows_skipElement stands
  still := fun stage read _ walker here => Follows.of_still read here
  fail := fun _ _ error walker _ => ⟨walker, rfl⟩

theorem walking_enters (stands : cursor.StandsOn context tag inside) :
    context.walking.Enters following (context.atHand tag inside) (· = cursor) (· = cursor)
      cursor.Ends where
  toAlike := walking_alike stands
  begin := fun _ _ _ _ here => Follows.of_still _ here
  goesOn := walking_alike stands

/-! ### Maps -/

theorem loopFollows_walkEntryParts (field : Field) (content : Content) (parts : EntryParts) :
    LoopFollows context content (fun steps => context.walkEntryParts field steps parts)
      (liftM (context.entryParts field parts content)) := by
  induction content generalizing parts with
  | closed _ => exact LoopFollows.closed (stopsAtTags_nextTag _) (fun _ => rfl) (fun _ => rfl)
  | broken _ => exact LoopFollows.nextTag_broken (fun _ => rfl)
  | text _ _ _ ih =>
      rw [Context.entryParts, Read.lift_bind]
      exact LoopFollows.nextTag_text (fun _ => rfl) (ih parts)
  | element _ _ _ _ ihAfter =>
      rw [entryParts_eq_part]
      apply LoopFollows.element (stopsAtTags_nextTag _) (fun _ => rfl)
      intro walker steps ends stands enough goesOn
      apply ((walking_enters stands).part field parts walker rfl).bind
      intro parts last session lastEnds
      exact goesOn last session lastEnds _ _ (ihAfter parts)

theorem follows_walkEntry (stands : walker.cursor.StandsOn context tag inside) (field : Field) :
    Follows (context.walkEntry field) (liftM (context.entryParts field {} inside)) walker
      walker.cursor.Ends :=
  (loopFollows_walkEntryParts field inside {}).loop stands

private theorem walkEntry_alike (stands : cursor.StandsOn context tag inside) (field : Field) :
    following.Like (· = cursor) cursor.Ends (context.walkEntry field)
      (liftM (context.entryParts field {} inside)) := by
  rintro walker rfl
  exact follows_walkEntry stands field

theorem loopFollows_walkEntries (id : EntityId) (field : TaggedField) (encoding : MapEncoding)
    (content : Content) (entries : OrderedMap String String) :
    LoopFollows context content (fun steps => context.walkEntries id field encoding steps entries)
      (context.readEntries id field encoding entries content) := by
  induction content generalizing entries with
  | closed _ => exact LoopFollows.closed (stopsAtTags_nextTag _) (fun _ => rfl) (fun _ => rfl)
  | broken _ => exact LoopFollows.nextTag_broken (fun _ => rfl)
  | text _ _ _ ih => exact LoopFollows.nextTag_text (fun _ => rfl) (ih entries)
  | element _ _ _ _ ihAfter =>
      rw [readEntries_eq_mapItem]
      apply LoopFollows.element (stopsAtTags_nextTag _) (fun _ => rfl)
      intro walker steps ends stands enough goesOn
      apply ((walking_enters stands).mapItem id field encoding entries
        (walkEntry_alike stands field.declared) walker rfl).bind
      intro entries last session lastEnds
      exact goesOn last session lastEnds _ _ (ihAfter entries)

private theorem allEntries_alike (stands : cursor.StandsOn context tag inside) (id : EntityId)
    (field : TaggedField) (encoding : MapEncoding) :
    following.Like (· = cursor) cursor.Ends (context.allEntries id field encoding)
      (context.readEntries id field encoding [] inside) := by
  rintro walker rfl
  exact (loopFollows_walkEntries id field encoding inside []).loop stands

/-! ### Entities and their children -/

/-- In front of the content, the loops over children and over items follow their readers. -/
structure ReadersAgree (context : Context) (content : Content) : Prop where
  children : ∀ frame values seen,
    LoopFollows context content (fun steps => context.walkChildren steps frame values seen)
      (context.readChildren frame values seen content)
  items : ∀ id field collection type holder,
    LoopFollows context content (fun steps => context.walkItems steps id field collection type holder)
      (context.readItems id field collection type holder content)

namespace ReadersAgree

private theorem childrenAlike (agree : ReadersAgree context inside)
    (stands : cursor.StandsOn context tag inside) {steps : Nat} (enough : cursor.rest.length < steps)
    (frame : Frame) (values : FieldValues) :
    following.Like (· = cursor) cursor.Ends (context.walkChildren steps frame values [])
      (context.childrenIn inside frame values) := by
  rintro walker rfl
  exact agree.children frame values [] walker stands.source_eq stands.inside_eq steps enough

private theorem itemsAlike (agree : ReadersAgree context inside)
    (stands : cursor.StandsOn context tag inside) {steps : Nat} (enough : cursor.rest.length < steps)
    (id : EntityId) (field : TaggedField) (collection : Collection) (type : ItemType) :
    following.Like (· = cursor) cursor.Ends
      (context.walkItems steps id field collection type (.collection collection []))
      (context.itemsIn id field inside collection type) := by
  rintro walker rfl
  exact agree.items id field collection type _ walker stands.source_eq stands.inside_eq steps enough

private theorem children_element {within after : Content} (ihWithin : ReadersAgree context within)
    (ihAfter : ReadersAgree context after) (frame : Frame) (values : FieldValues)
    (seen : List String) :
    LoopFollows context (.element tag within after)
      (fun steps => context.walkChildren steps frame values seen)
      (context.readChildren frame values seen (.element tag within after)) := by
  rw [readChildren_eq_child]
  apply LoopFollows.element (stopsAtTags_nextTag _) (fun _ => by rw [Context.walkChildren])
  intro walker steps ends stands enough goesOn
  apply ((walking_enters stands).child (ihWithin.childrenAlike stands enough) frame values seen
    (ihWithin.itemsAlike stands enough frame.id) (allEntries_alike stands frame.id) walker rfl).bind
  rintro ⟨values, seen⟩ last session lastEnds
  exact goesOn last session lastEnds _ _ (ihAfter.children frame values seen)

private theorem items_element {within after : Content} (ihWithin : ReadersAgree context within)
    (ihAfter : ReadersAgree context after) (id : EntityId) (field : TaggedField)
    (collection : Collection) (type : ItemType) (holder : Value) :
    LoopFollows context (.element tag within after)
      (fun steps => context.walkItems steps id field collection type holder)
      (context.readItems id field collection type holder (.element tag within after)) := by
  rw [readItems_eq_addItem]
  apply LoopFollows.element (stopsAtTags_nextTag _) (fun _ => by rw [Context.walkItems])
  intro walker steps ends stands enough goesOn
  apply ((walking_enters stands).addItem (ihWithin.childrenAlike stands enough) id field collection
    type holder walker rfl).bind
  intro holder last session lastEnds
  exact goesOn last session lastEnds _ _ (ihAfter.items id field collection type holder)

end ReadersAgree

/-- Both loops go from one token of a content to the next as the content goes on. -/
theorem readersAgree (context : Context) (content : Content) : ReadersAgree context content := by
  induction content with
  | closed _ =>
      constructor
      · intro frame values seen
        exact LoopFollows.closed (stopsAtTags_nextTag _) (fun _ => by rw [Context.walkChildren])
          (fun _ => rfl)
      · intro id field collection type holder
        exact LoopFollows.closed (stopsAtTags_nextTag _) (fun _ => by rw [Context.walkItems])
          (fun _ => rfl)
  | broken _ =>
      constructor
      · intro frame values seen
        exact LoopFollows.nextTag_broken (fun _ => by rw [Context.walkChildren])
      · intro id field collection type holder
        exact LoopFollows.nextTag_broken (fun _ => by rw [Context.walkItems])
  | text _ _ _ ih =>
      constructor
      · intro frame values seen
        rw [Context.readChildren]
        exact LoopFollows.nextTag_text (fun _ => by rw [Context.walkChildren])
          (ih.children frame values seen)
      · intro id field collection type holder
        rw [Context.readItems]
        exact LoopFollows.nextTag_text (fun _ => by rw [Context.walkItems])
          (ih.items id field collection type holder)
  | element _ _ _ ihWithin ihAfter =>
      constructor
      · exact ihWithin.children_element ihAfter
      · exact ihWithin.items_element ihAfter

theorem allChildren_alike (stands : cursor.StandsOn context tag inside) (frame : Frame)
    (values : FieldValues) :
    following.Like (· = cursor) cursor.Ends (context.allChildren frame values)
      (context.childrenIn inside frame values) := by
  rintro walker rfl
  exact ((readersAgree context inside).children frame values []).loop stands

private theorem allItems_alike (stands : cursor.StandsOn context tag inside) (id : EntityId)
    (field : TaggedField) (collection : Collection) (type : ItemType) :
    following.Like (· = cursor) cursor.Ends (context.allItems id field collection type)
      (context.itemsIn id field inside collection type) := by
  rintro walker rfl
  exact ((readersAgree context inside).items id field collection type _).loop stands

/-! ### Readers of one element -/

theorem follows_walkEntity (stands : walker.cursor.StandsOn context tag inside) (className : String)
    (atRoot : Bool) :
    Follows (context.walkEntity className atRoot context.allChildren)
      (context.readEntity className tag inside atRoot) walker walker.cursor.Ends := by
  unfold Context.readEntity
  rw [← atHand_entity]
  exact (walking_enters stands).entity (allChildren_alike stands) className atRoot walker rfl

theorem follows_walkItem (stands : walker.cursor.StandsOn context tag inside) (field : TaggedField)
    (type : ItemType) :
    Follows (context.walkItem field type context.allChildren)
      (context.item field type tag inside (context.childrenIn inside)) walker
      walker.cursor.Ends := by
  have item : context.item field type tag inside (context.childrenIn inside) =
      (context.atHand tag inside).item field type (context.childrenIn inside) >>= fun found =>
        pure found.2 := by
    rw [atHand_item, bind_assoc]
    simp only [pure_bind, bind_pure]
  rw [item]
  apply ((walking_enters stands).item (allChildren_alike stands) field type walker rfl).bind
  intro found last session lastEnds
  exact Follows.of_pure lastEnds

theorem follows_walkUnwrapped (stands : walker.cursor.StandsOn context tag inside) (frame : Frame)
    (values : FieldValues) (field : TaggedField) (collection : Collection) (type : ItemType) :
    Follows (context.walkUnwrapped frame values field collection type context.allChildren)
      (context.unwrapped frame values field collection type tag inside (context.childrenIn inside))
      walker walker.cursor.Ends := by
  rw [← atHand_unwrapped]
  exact (walking_enters stands).unwrapped (allChildren_alike stands) frame values field collection
    type walker rfl

theorem follows_walkWrapped (stands : walker.cursor.StandsOn context tag inside) (frame : Frame)
    (values : FieldValues) (field : TaggedField) (collection : Collection) (type : ItemType) :
    Follows (context.walkWrapped frame values field collection type (context.allItems frame.id field))
      (context.wrapped frame values field collection type tag (context.itemsIn frame.id field inside))
      walker walker.cursor.Ends := by
  rw [← atHand_wrapped]
  exact (walking_enters stands).wrapped frame values field collection type
    (allItems_alike stands frame.id field collection type) walker rfl

theorem follows_walkMap (stands : walker.cursor.StandsOn context tag inside) (frame : Frame)
    (values : FieldValues) (field : TaggedField) (encoding : MapEncoding) :
    Follows (context.walkMap frame values field encoding)
      (context.readMap frame values field encoding tag inside) walker walker.cursor.Ends := by
  rw [← atHand_map]
  exact (walking_enters stands).map frame values field
    (allEntries_alike stands frame.id field encoding) walker rfl

theorem follows_walkField (stands : walker.cursor.StandsOn context tag inside) (frame : Frame)
    (values : FieldValues) (field : TaggedField) :
    Follows
      (context.walkField frame values field context.allChildren (context.allItems frame.id field))
      (context.readField frame values field tag inside) walker walker.cursor.Ends := by
  unfold Context.readField
  rw [← atHand_field]
  exact (walking_enters stands).field (allChildren_alike stands) frame values field
    (allItems_alike stands frame.id field) (allEntries_alike stands frame.id field) walker rfl

end Trellis.Reading
