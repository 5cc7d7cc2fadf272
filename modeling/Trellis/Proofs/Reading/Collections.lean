import Trellis.Proofs.Graph.Sameness
import Trellis.Proofs.Reading.Assembly
import Trellis.Proofs.Reading.Gifts
import Trellis.Proofs.Reading.Placement

/-!
Items of lists and sets.

A list holds the items read for it, a set those of them that equal no earlier one.  A set looks only
at the members it has, and this comes to the same, since equality is symmetric and transitive.
Whether the items stand in an element of their own or among the other children makes no difference,
except that there is no element of their own where there is no item at all.
-/

namespace Trellis.Reading

open Trellis.Graph (Entity Unequal Value)
open Markup (Content Document Tag)
open Schema (Collection Declarations ItemType Layout TaggedField)

/-! ### Statements -/

/-- What a list or set holds of the values that are read for it: a list all of them, and a set those
that equal none before, whether that one is held or not. -/
def heldItems (collection : Collection) (values : List Value) : List Value :=
  match collection with
  | .list => values
  | .set =>
      (values.zipIdx.filter fun entry =>
        (values.take entry.2).all fun earlier => !earlier.equal entry.1).map (·.1)

/-- The field holds these items, which the elements for it are read as, in the order of the document.
It is set if any children belong to it; in the element of a list or set there may be no items. -/
structure HoldsItems (context : Context) (field : TaggedField) (collection : Collection)
    (type : ItemType) (wrapped : Bool) (children : List (Tag × Content)) (items : List (Tag × Value))
    (value : Option Value) : Prop where
  read : List.Forall₂ (ItemFrom context field type) (itemElements field wrapped children) items
  value_eq : value = if children = [] then none
    else some (.collection collection (heldItems collection (items.map (·.2))))

/-! ### Members of a set -/

private theorem heldItems_set_concat (values : List Value) (value : Value) :
    heldItems .set (values ++ [value]) =
      if values.any (·.equal value) then heldItems .set values else heldItems .set values ++ [value] := by
  have before : values.zipIdx.filter (fun entry =>
        ((values ++ [value]).take entry.2).all fun earlier => !earlier.equal entry.1) =
      values.zipIdx.filter fun entry =>
        (values.take entry.2).all fun earlier => !earlier.equal entry.1 := by
    refine List.filter_congr ?_
    intro entry member
    have within := (List.mem_zipIdx member).2.1
    rw [List.take_append_of_le_length (by omega)]
  have last : ((values ++ [value]).take values.length).all (fun earlier => !earlier.equal value) =
      !values.any (·.equal value) := by
    rw [List.take_left, List.not_any_eq_all_not]
  simp only [heldItems, List.zipIdx_append, Nat.zero_add, List.zipIdx_singleton, List.filter_append, before,
    List.filter_singleton, last, List.map_append]
  cases values.any (·.equal value) with
  | true => exact List.append_nil _
  | false => rfl

private theorem heldItems_subset (collection : Collection) (values : List Value) :
    heldItems collection values ⊆ values := by
  cases collection with
  | list => exact List.Subset.refl values
  | set =>
      intro value member
      obtain ⟨entry, isEntry, rfl⟩ := List.mem_map.1 member
      exact List.fst_mem_of_mem_zipIdx (List.mem_filter.1 isEntry).1

private theorem exists_kept {collection : Collection} {items : List (Tag × Value)} {item : Tag × Value}
    (member : item ∈ items) :
    ∃ kept ∈ keptItems collection items,
      kept.2 = item.2 ∨ (collection = .set ∧ kept.2.equal item.2 = true) := by
  induction items using List.reverseRecOn with
  | nil => cases member
  | append_singleton items last ih =>
      rw [keptItems_concat, keepNext]
      rcases List.mem_append.1 member with earlier | here
      · obtain ⟨kept, keptMember, same⟩ := ih earlier
        split
        · exact ⟨kept, keptMember, same⟩
        · exact ⟨kept, List.mem_append_left _ keptMember, same⟩
      · rw [List.mem_singleton.1 here]
        split
        · rename_i known
          obtain ⟨kept, keptMember, equal⟩ := List.any_eq_true.1 known.2
          exact ⟨kept, keptMember, .inr ⟨known.1, equal⟩⟩
        · exact ⟨last, List.mem_append_right _ (List.mem_singleton_self last), .inl rfl⟩

/-- An item equals one of those before it just if it equals one of these that is held. -/
private theorem any_keptItems (items : List (Tag × Value)) (value : Value) :
    (keptItems .set items).any (·.2.equal value) = (items.map (·.2)).any (·.equal value) := by
  rw [Bool.eq_iff_iff, List.any_eq_true, List.any_eq_true]
  constructor
  · rintro ⟨item, member, equal⟩
    exact ⟨item.2, List.mem_map_of_mem (mem_keptItems member), equal⟩
  · rintro ⟨_, member, equal⟩
    obtain ⟨item, isItem, rfl⟩ := List.mem_map.1 member
    have found : ∃ kept ∈ keptItems .set items, _ := exists_kept isItem
    obtain ⟨kept, isKept, same | ⟨_, keptEqual⟩⟩ := found
    · exact ⟨kept, isKept, same ▸ equal⟩
    · exact ⟨kept, isKept, Value.equal_trans keptEqual equal⟩

private theorem keptItems_values (collection : Collection) (items : List (Tag × Value)) :
    (keptItems collection items).map (·.2) = heldItems collection (items.map (·.2)) := by
  cases collection with
  | list => rw [keptItems_list, heldItems]
  | set =>
      induction items using List.reverseRecOn with
      | nil => rfl
      | append_singleton items item ih =>
          rw [keptItems_concat, keepNext, List.map_append, List.map_singleton, heldItems_set_concat,
            any_keptItems]
          simp only [true_and]
          split
          · exact ih
          · rw [List.map_append, ih, List.map_singleton]

private theorem heldItems_unequal (values : List Value) : Unequal (heldItems .set values) := by
  induction values using List.reverseRecOn with
  | nil => exact .nil
  | append_singleton values value ih =>
      rw [heldItems_set_concat]
      split
      · exact ih
      · rename_i new
        refine List.pairwise_append.2 ⟨ih, List.pairwise_singleton _ _, ?_⟩
        intro earlier isEarlier later isLater
        rw [List.mem_singleton.1 isLater]
        have member := heldItems_subset .set values isEarlier
        constructor
        · exact Bool.eq_false_iff.2 fun equal =>
            new (List.any_eq_true.2 ⟨earlier, member, equal⟩)
        · exact Bool.eq_false_iff.2 fun equal =>
            new (List.any_eq_true.2 ⟨earlier, member, Value.equal_symm equal⟩)

private theorem heldItems_same (collection : Collection) {values values' : List Value}
    (same : List.Forall₂ Value.Same values values') :
    List.Forall₂ Value.Same (heldItems collection values) (heldItems collection values') := by
  cases collection with
  | list => exact same
  | set =>
      induction values' using List.reverseRecOn generalizing values with
      | nil =>
          cases same
          exact .nil
      | append_singleton values' value' ih =>
          have before := List.forall₂_take_append _ _ _ same
          have last := List.forall₂_drop_append _ _ _ same
          rw [← List.take_append_drop values'.length values]
          generalize values.take values'.length = earlier at before ⊢
          generalize values.drop values'.length = final at last ⊢
          obtain _ | ⟨valueSame, none⟩ := last
          cases none
          rw [heldItems_set_concat, heldItems_set_concat, Graph.any_equal_eq before valueSame]
          split
          · exact ih before
          · exact List.rel_append (ih before) (.cons valueSame .nil)

/-! ### Fields -/

section Fields

variable {context context' : Context} {field field' : TaggedField} {collection : Collection}
  {type type' : ItemType} {wrapped : Bool} {children children' : List (Tag × Content)}
  {items items' : List (Tag × Value)} {value value' : Option Value}

private theorem itemElements_nil (field : TaggedField) (wrapped : Bool) : itemElements field wrapped
    [] = [] := by
  cases wrapped <;> rfl

theorem Gathered.holdsItems (gathered : Gathered context field none children value)
    (kindEq : field.declared.kind = .many collection type wrapped) :
    ∃ items, HoldsItems context field collection type wrapped children items value := by
  rcases gathered with ⟨rfl, rfl⟩ | ⟨present, read, rfl, valueFrom⟩
  · refine ⟨[], ?_, (if_pos rfl).symm⟩
    rw [itemElements_nil]
    exact .nil
  · cases valueFrom with
    | scalar otherKind | entity otherKind | map otherKind =>
        rw [otherKind] at kindEq
        cases kindEq
    | items sameKind itemsRead =>
        rw [sameKind] at kindEq
        cases kindEq
        refine ⟨_, itemsRead, ?_⟩
        rw [if_neg present, keptItems_values]

theorem HoldsItems.value_eq_some
    (holds : HoldsItems context field collection type wrapped children items value)
    (some : items ≠ []) :
    value = .some (.collection collection (heldItems collection (items.map (·.2)))) := by
  rw [holds.value_eq, if_neg]
  rintro rfl
  have read := holds.read
  rw [itemElements_nil] at read
  cases read
  exact some rfl

/-- Items in an element of their own and items among the other children give the same list or set.
Without items the element gives an empty one, and otherwise there is none. -/
theorem HoldsItems.same (own : HoldsItems context field collection type true children items value)
    (among : HoldsItems context' field' collection type' false children' items' value')
    (same : List.Forall₂ Value.Same (items.map (·.2)) (items'.map (·.2))) :
    (items ≠ [] → ∃ read read', value = some read ∧ value' = some read' ∧ read.Same read') ∧
      (items = [] → children ≠ [] → value = some (.collection collection []) ∧ value' = none) := by
  have lengths : items.length = items'.length := by
    have mapped := same.length_eq
    rw [List.length_map, List.length_map] at mapped
    exact mapped
  have noneEither : items = [] ↔ items' = [] := by
    rw [← List.length_eq_zero_iff, lengths, List.length_eq_zero_iff]
  constructor
  · intro some
    refine ⟨_, _, own.value_eq_some some, among.value_eq_some (mt noneEither.2 some), ?_⟩
    exact Value.same_collection_iff.2 ⟨_, rfl, heldItems_same collection same⟩
  · rintro rfl present
    have read' := among.read
    rw [noneEither.1 rfl, itemElements, if_neg Bool.false_ne_true] at read'
    constructor
    · rw [own.value_eq, if_neg present]
      cases collection <;> rfl
    · cases read'
      exact among.value_eq.trans (if_pos rfl)

end Fields

/-! ### Entities -/

/-- A list holds the items read for it, and a set those that equal none before, and never two equal
ones.  Whether the items have an element of their own matters only if there are none.  This holds of
the fields whose name no other field of the class has. -/
theorem collections_hold_items {context : Context} {declarations : Declarations}
    (built : declarations.build = .ok context.schema) {className : String} {tag : Tag}
    {inside : Content} {atRoot : Bool} {session session' : Session} {entity : Entity}
    (runs : context.readEntity className tag inside atRoot session = .ok (entity, session')) :
    (∃ layout, context.schema.layout? className = some layout ∧
      ∀ field ∈ layout.fields, layout.Sole field → ∀ collection type wrapped,
        field.declared.kind = .many collection type wrapped →
          ∃ items, HoldsItems context field collection type wrapped
            (childrenOf layout field inside) items (entity.get? field.name)) ∧
    (∀ values, Unequal (heldItems .set values)) ∧
    ∀ (context context' : Context) field field' collection type type' children children' items items'
      value value', HoldsItems context field collection type true children items value →
        HoldsItems context' field' collection type' false children' items' value' →
          List.Forall₂ Value.Same (items.map (·.2)) (items'.map (·.2)) →
            (items ≠ [] → ∃ read read', value = some read ∧ value' = some read' ∧ read.Same read') ∧
              (items = [] → children ≠ [] →
                value = some (.collection collection []) ∧ value' = none) := by
  refine ⟨?_, heldItems_unequal, ?_⟩
  · obtain ⟨frame, values, begun, values', begins, _, _⟩ := entity_eq_ok runs
    have layoutEq := beginEntity_layout? begins
    have placed := placed_of_layout? built layoutEq
    refine ⟨frame.layout, layoutEq, ?_⟩
    intro field member sole collection type wrapped kindEq
    have noScalar : field.declared.scalarType? = none := by
      rw [Schema.Field.scalarType?, kindEq]
    exact (readEntity_gathered layoutEq placed member sole noScalar runs).holdsItems kindEq
  · intro _ _ _ _ _ _ _ _ _ _ _ _ _ own among same
    exact own.same among same

def drawer : Declarations where
  classes := [
    { name := "Drawer"
      fields := [
        { name := "notes", kind := .many .list (.scalar .text) true },
        { name := "marks", kind := .many .set (.scalar .text) false },
        { name := "things", kind := .scalar .text, tagName := some "label", default := some "odds" },
        { name := "things", kind := .many .list (.scalar .text) false }] }]
  roots := ["Drawer"]

/-- An item of an unwrapped list or set is added to whatever the name of the field has by then, and to a
single value nothing is added. -/
theorem keepItem_of_single {context : Context} {frame : Frame} {values values' : FieldValues}
    {field : TaggedField} {collection : Collection} {type : ItemType} {tag : Tag} {held value : Value}
    {session session' : Session} (heldEq : values.get? field.name = some held)
    (single : ∀ collection items, held ≠ .collection collection items)
    (runs : context.keepItem frame values field collection type tag value session =
      .ok (values', session')) : values' = values := by
  rw [keepItem_eq_ok runs, heldEq, Option.getD_some, push_of_single single]
  exact OrderedMap.set_of_get? heldEq

/-- The list of things does not hold the one thing that is read for it. -/
theorem items_lost :
    let document := "<drawer><thing>pin</thing></drawer>"
    ∃ schema graph layout field tag inside,
      drawer.build = .ok schema ∧ (Reader.mk schema {}).readAs "Drawer" document none = .ok graph ∧
      Document.parse true document = .rooted tag inside ∧ schema.layout? "Drawer" = some layout ∧
      field ∈ layout.fields ∧ field.declared.kind = .many .list (.scalar .text) false ∧
      childrenOf layout field inside ≠ [] ∧
      ∀ items, ¬ HoldsItems ⟨schema, true, none⟩ field .list (.scalar .text) false
        (childrenOf layout field inside) items (graph.root.get? field.name) := by
  intro document
  have passes : drawer.build.toOption.any (fun schema =>
      (schema.layout? "Drawer").any fun layout =>
        ((Reader.mk schema {}).readAs "Drawer" document none).toOption.any fun graph =>
          (Document.parse true document).casesOn
            (fun _ inside => layout.fields.any fun field =>
              field.declared.kind = .many .list (.scalar .text) false ∧
              ¬ (childrenOf layout field inside).isEmpty ∧
              (graph.root.get? field.name).bind (·.scalarText?) = some "odds")
            fun _ => false) = true := by
    decide +kernel
  obtain ⟨schema, built, passes⟩ := Schema.exists_built passes
  simp only [Option.any_eq_true] at passes
  obtain ⟨layout, layoutEq, graph, found, passes⟩ := passes
  have reads := eq_ok_of_toOption found
  obtain ⟨tag, inside, _, documentEq, _, _⟩ := readDocument_eq_ok reads
  simp only [documentEq, List.any_eq_true, decide_eq_true_eq, List.isEmpty_iff] at passes
  obtain ⟨field, member, kindEq, present, textEq⟩ := passes
  refine ⟨schema, graph, layout, field, tag, inside, built, reads, documentEq, layoutEq, member, kindEq,
    present, ?_⟩
  intro items holds
  rw [holds.value_eq, if_neg present] at textEq
  cases textEq

/-- Of the marks of a drawer the second one is not kept, and between its notes there is something else,
which a lenient read passes over. -/
theorem collections_hold_items_of_drawer :
    let document := "<drawer><mark>x</mark><notes><note>a</note><p/><note>b</note></notes>" ++
      "<mark>x</mark></drawer>"
    ∃ schema graph layout inside,
      drawer.build = .ok schema ∧
      (Reader.mk schema { strict := false }).readAs "Drawer" document none = .ok graph ∧
      (∀ field ∈ layout.fields, field.name ∈ ["notes", "marks"] → layout.Sole field ∧
        ∀ collection type wrapped, field.declared.kind = .many collection type wrapped →
          ∃ items, HoldsItems ⟨schema, false, none⟩ field collection type wrapped
            (childrenOf layout field inside) items (graph.root.get? field.name)) ∧
      (layout.fields.map (·.name)).take 2 = ["notes", "marks"] ∧
      ((graph.root.get? "notes").bind (·.items?)).map (·.map (·.scalarText?)) =
        some [some "a", some "b"] ∧
      ((graph.root.get? "marks").bind (·.items?)).map (·.map (·.scalarText?)) = some [some "x"] ∧
      let inner : Content := .text ⟨1, 1⟩ "a" (.closed "UTF-8")
      let child : Tag × Content := (⟨"note", [], ⟨1, 1⟩⟩, inner)
      let owner : Tag × Content := (⟨"notes", [], ⟨1, 1⟩⟩, .element child.1 inner (.closed "UTF-8"))
      ∃ own among read read',
        HoldsItems ⟨schema, false, none⟩ own .set (.scalar .text) true [owner] [(child.1, .text "a")]
          (some read) ∧
        HoldsItems ⟨schema, false, none⟩ among .set (.scalar .text) false [child] [(child.1, .text "a")]
          (some read') ∧
        read.Same read' := by
  intro document
  have passes : drawer.build.toOption.any (fun schema =>
      ((Reader.mk schema { strict := false }).readAs "Drawer" document none).toOption.any fun graph =>
        (schema.layout? "Drawer").any fun layout =>
          (∀ field ∈ layout.fields, field.name ∈ ["notes", "marks"] → layout.Sole field) ∧
          (layout.fields.map (·.name)).take 2 = ["notes", "marks"] ∧
          ((graph.root.get? "notes").bind (·.items?)).map (·.map (·.scalarText?)) =
            some [some "a", some "b"] ∧
          ((graph.root.get? "marks").bind (·.items?)).map (·.map (·.scalarText?)) = some [some "x"]) =
        true := by
    decide +kernel
  obtain ⟨schema, built, passes⟩ := Schema.exists_built passes
  simp only [Option.any_eq_true, decide_eq_true_eq] at passes
  obtain ⟨graph, found, layout, layoutEq, sole, namesEq, notesEq, marksEq⟩ := passes
  have reads := eq_ok_of_toOption found
  obtain ⟨tag, inside, session, _, entityEq, _⟩ := readDocument_eq_ok reads
  simp only [ite_self] at entityEq
  obtain ⟨⟨layout', layoutEq', holds⟩, _, same⟩ := collections_hold_items built entityEq
  obtain rfl := Option.some.inj (layoutEq.symm.trans layoutEq')
  refine ⟨schema, graph, layout, inside, built, reads, ?_, namesEq, notesEq, marksEq, ?_⟩
  · intro field member named
    exact ⟨sole field member named, holds field member (sole field member named)⟩
  · intro inner child owner
    let own : TaggedField := ⟨{ name := "notes", kind := .many .set (.scalar .text) true }, "notes", "note"⟩
    let among : TaggedField :=
      ⟨{ name := "notes", kind := .many .set (.scalar .text) false }, "notes", "note"⟩
    have ownHolds : HoldsItems ⟨schema, false, none⟩ own .set (.scalar .text) true [owner]
        [(child.1, .text "a")] (some (.collection .set [.text "a"])) :=
      ⟨.cons ⟨rfl, .initial, .initial, rfl⟩ .nil, rfl⟩
    have amongHolds : HoldsItems ⟨schema, false, none⟩ among .set (.scalar .text) false [child]
        [(child.1, .text "a")] (some (.collection .set [.text "a"])) :=
      ⟨.cons ⟨rfl, .initial, .initial, rfl⟩ .nil, rfl⟩
    obtain ⟨read, read', readEq, readEq', sameRead⟩ :=
      (same _ _ _ _ _ _ _ _ _ _ _ _ _ ownHolds amongHolds (.cons (.refl _) .nil)).1
        (List.cons_ne_nil _ _)
    rw [readEq] at ownHolds
    rw [readEq'] at amongHolds
    exact ⟨own, among, read, read', ownHolds, amongHolds, sameRead⟩

end Trellis.Reading
