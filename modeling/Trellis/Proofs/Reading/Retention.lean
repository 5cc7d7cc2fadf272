import Trellis.Proofs.Reading.Gifts

/-!
What is read is kept.

Whatever an element gives its entity is there at the end, unless the name of its field has been set
again or could not take it.  A field is set again only by another field of the same name, or by the
content if it is an attribute too, for no field is given two values.  An item of an unwrapped list or
set is lost to a name that has a single value already.
-/

namespace Trellis.Reading

open Trellis.Graph (Entity Value)
open Markup (Content Document Tag)
open Schema (Collection Declarations ItemType Layout TaggedField)

/-! ### Statements -/

/-- What has become of the value of a gift when the entity ends. -/
structure Retained (context : Context) (start : Start) (defaults : FieldValues) (entity : Entity)
    (before : List Gift) (gift : Gift) (after : List Gift) (value : Value) : Prop where
  /-- What is set stays, though items may be added to a list or set. -/
  kept : gift.isItem = false → OnlyItems gift.field.name after →
    ∃ held, entity.get? gift.field.name = some held ∧ GrowsTo value held
  unchanged : gift.isItem = false → (∀ later ∈ after, later.field.name ≠ gift.field.name) →
    entity.get? gift.field.name = some value
  /-- An item stays, or one that equals it in a set. -/
  added : gift.isItem = true → Collects defaults gift.field.name before →
    OnlyItems gift.field.name after →
      ∃ collection items, entity.get? gift.field.name = some (.collection collection items) ∧
        ∃ other ∈ items, other = value ∨ (collection = .set ∧ other.equal value = true)
  /-- An item that finds a single value makes no difference. -/
  discarded : gift.isItem = true → ¬ Collects defaults gift.field.name before →
    Keeps context start defaults (before ++ after) entity.fields

variable {context : Context} {start : Start} {gift : Gift} {before after gifts : List Gift}
  {defaults values values' : FieldValues} {value : Value} {name : String}

/-! ### What a name has before an item -/

private theorem defaultValues_single {layout : Layout} {location : Location}
    (defaultsEq : defaultValues layout location = .ok defaults) {held : Value}
    (heldEq : defaults.get? name = some held) (collection : Collection) (items : List Value) :
    held ≠ .collection collection items := by
  refine @defaultValues_induction layout location
    (fun values => ∀ held, values.get? name = some held → held ≠ .collection collection items)
    ?_ ?_ defaults defaultsEq held heldEq
  · intro held heldEq
    cases heldEq
  · intro field _ text type earlier value _ _ coerceEq known held heldEq
    rw [OrderedMap.get?_set] at heldEq
    split at heldEq
    · cases heldEq
      rintro rfl
      have typed := coerce_hasType coerceEq
      cases type <;> exact typed.elim
    · exact known held heldEq

theorem Keeps.collection_of_collects (keeps : Keeps context start defaults gifts values)
    (collects : Collects defaults name gifts) {held : Value} (heldEq : values.get? name = some held) :
    ∃ collection items, held = .collection collection items := by
  rcases collects with ⟨early, last, late, rfl, rfl, wrapped, items⟩ | ⟨items, noDefault⟩
  · obtain ⟨between, _, keeps⟩ := keeps.split
    cases keeps with
    | @cons _ _ _ _ value read keeps =>
        have isSet := Gift.isItem_of_isWrapped wrapped
        refine keeps.collects items ?_ held heldEq
        intro first firstEq
        rw [Gift.get?_keep_of_set isSet] at firstEq
        cases firstEq
        exact (read.collection_iff isSet).2 wrapped
  · refine keeps.collects items ?_ held heldEq
    intro first firstEq
    rw [noDefault] at firstEq
    cases firstEq

theorem Keeps.single_of_not_collects (keeps : Keeps context start defaults gifts values)
    (single : ∀ held, defaults.get? name = some held → ∀ collection items, held ≠ .collection collection items)
    (collectsNot : ¬ Collects defaults name gifts) :
    ∃ held, values.get? name = some held ∧ ∀ collection items, held ≠ .collection collection items := by
  rcases exists_last_set name gifts with items | ⟨early, last, late, rfl, rfl, isSet, items⟩
  · cases firstEq : defaults.get? name with
    | none => exact absurd (.inr ⟨items, firstEq⟩) collectsNot
    | some first =>
        obtain ⟨held, heldEq, grows⟩ := keeps.grows items firstEq .same
        obtain rfl := grows.eq (single first firstEq)
        exact ⟨held, heldEq, single held firstEq⟩
  · obtain ⟨value, held, read, heldEq, grows⟩ := keeps.grows_of_set isSet items
    have valueSingle : ∀ collection items, value ≠ .collection collection items := by
      intro collection added valueEq
      have wrapped := (read.collection_iff isSet).1 ⟨collection, added, valueEq⟩
      exact collectsNot (.inl ⟨early, last, late, rfl, rfl, wrapped, items⟩)
    obtain rfl := grows.eq valueSingle
    exact ⟨held, heldEq, valueSingle⟩

/-! ### Single gifts among others -/

section Retained

variable {entity : Entity} {between : FieldValues}
  (keepsBefore : Keeps context start defaults before between)
  (keepsAfter : Keeps context start (gift.keep between value) after entity.fields)

include keepsBefore keepsAfter in
private theorem added_of_collects (isItem : gift.isItem = true)
    (collects : Collects defaults gift.field.name before) (items : OnlyItems gift.field.name after) :
    ∃ collection items, entity.get? gift.field.name = some (.collection collection items) ∧
      ∃ other ∈ items, other = value ∨ (collection = .set ∧ other.equal value = true) := by
  obtain ⟨own, ownEq⟩ := Option.isSome_iff_exists.1 isItem
  obtain ⟨collection, earlier, holderEq⟩ : ∃ collection earlier,
      (between.get? gift.field.name).getD (.collection own []) = .collection collection earlier := by
    cases heldEq : between.get? gift.field.name with
    | none => exact ⟨own, [], rfl⟩
    | some held => exact keepsBefore.collection_of_collects collects heldEq
  obtain ⟨added, pushedEq, other, member, same⟩ := push_collection collection earlier value
  have setEq : (gift.keep between value).get? gift.field.name =
      some (.collection collection (earlier ++ added)) := by
    rw [Gift.keep_of_item ownEq, OrderedMap.get?_set_self, holderEq, pushedEq]
  obtain ⟨held, heldEq, grows⟩ := keepsAfter.grows items setEq .same
  cases grows with
  | same => exact ⟨collection, _, heldEq, other, member, same⟩
  | more later valueEq =>
      cases valueEq
      exact ⟨collection, _, heldEq, other, List.mem_append_left later member, same⟩

include keepsBefore keepsAfter in
private theorem keeps_without_item
    (single : ∀ held, defaults.get? gift.field.name = some held →
      ∀ collection items, held ≠ .collection collection items)
    (isItem : gift.isItem = true) (collectsNot : ¬ Collects defaults gift.field.name before) :
    Keeps context start defaults (before ++ after) entity.fields := by
  obtain ⟨own, ownEq⟩ := Option.isSome_iff_exists.1 isItem
  obtain ⟨held, heldEq, heldSingle⟩ := keepsBefore.single_of_not_collects single collectsNot
  have unchanged : gift.keep between value = between := by
    rw [Gift.keep_of_item ownEq, heldEq, Option.getD_some, push_of_single heldSingle]
    exact OrderedMap.set_of_get? heldEq
  rw [unchanged] at keepsAfter
  exact keepsBefore.append keepsAfter

end Retained

private theorem exists_retained {layout : Layout} {location : Location} {entity : Entity}
    (defaultsEq : defaultValues layout location = .ok defaults)
    (keeps : Keeps context start defaults (before ++ gift :: after) entity.fields) :
    ∃ value, gift.ReadAs context start value ∧
      Retained context start defaults entity before gift after value := by
  obtain ⟨between, keepsBefore, keeps⟩ := keeps.split
  cases keeps with
  | @cons _ _ _ _ value read keepsAfter =>
      refine ⟨value, read, ⟨?_, ?_, added_of_collects keepsBefore keepsAfter,
        keeps_without_item keepsBefore keepsAfter fun held => defaultValues_single defaultsEq⟩⟩
      · intro isSet items
        exact keepsAfter.grows items (Gift.get?_keep_of_set isSet) .same
      · intro isSet others
        exact (keepsAfter.same others).trans (Gift.get?_keep_of_set isSet)

/-! ### Entities -/

/-- The fields of an entity are its defaults with what its element gives, kept in the order of reading,
and no field is set twice but an attribute that is the content too.  So a value that is set stays
until its name is set again, and an item until its name is set again if the name has no single
value, in which case it is lost. -/
theorem read_values_retained (reader : Reader) {declarations : Declarations}
    (built : declarations.build = .ok reader.schema) (className document : String)
    (source : Option Source) {graph : ObjectGraph}
    (reads : reader.readAs className document source = .ok graph) :
    let context : Context :=
      ⟨reader.schema, reader.options.strict, if reader.schema.tracksSources then source else none⟩
    ∃ (tag : Tag) (inside : Content),
      Document.parse reader.options.extended document = .rooted tag inside ∧
      ∀ entity, graph.root.Reaches entity → ∃ start layout defaults,
        IsEntityAt context (Start.all reader.schema ⟨className, tag, inside⟩) entity start layout ∧
        defaultValues layout (context.locate start.tag.position) = .ok defaults ∧
        let gifts := start.gifts layout (entity.id.value == 0)
        Keeps context start defaults gifts entity.fields ∧ SetOnce gifts ∧
        ∀ before gift after, gifts = before ++ gift :: after →
          ∃ value, gift.ReadAs context start value ∧
            Retained context start defaults entity before gift after value := by
  intro context
  obtain ⟨tag, inside, session, documentEq, entityEq, _⟩ := readDocument_eq_ok reads
  refine ⟨tag, inside, documentEq, ?_⟩
  intro entity reaches
  obtain ⟨start, layout, isAt⟩ := exists_isEntityAt entityEq reaches
  obtain ⟨earlier, later, _, readEq⟩ := isAt.read
  obtain ⟨defaults, defaultsEq, keeps⟩ := readEntity_keeps isAt.layout_eq (isAt.placed built) readEq
  have distinct := nodup_attributes documentEq (List.mem_of_getElem? isAt.start_eq)
  refine ⟨start, layout, defaults, isAt, defaultsEq, keeps,
    readEntity_setOnce isAt.layout_eq distinct readEq, ?_⟩
  intro before gift after giftsEq
  rw [giftsEq] at keeps
  exact exists_retained defaultsEq keeps

/-! ### A letter -/

/-- A letter has a contact of its own and one that it inherits, and its label has the name of a list of
labels. -/
def letter : Declarations where
  classes := [
    { name := "Sent", isAbstract := true
      fields := [
        { name := "contact", kind := .scalar .text, isAttribute := true, tagName := some "from" }] },
    { name := "Letter", superclass := some "Sent"
      fields := [
        { name := "contact", kind := .scalar .text, isAttribute := true, tagName := some "to" },
        { name := "stamp", kind := .scalar .text, isAttribute := true },
        { name := "label", kind := .scalar .text, isAttribute := true },
        { name := "note", kind := .many .list (.scalar .text) false, itemTag := some "note" },
        { name := "label", kind := .many .list (.scalar .text) false, itemTag := some "item" }] }]
  roots := ["Letter"]

private theorem letter_read {document : String}
    {check : Schema → Layout → ObjectGraph → Tag → Content → Bool}
    (passes : letter.build.toOption.any (fun schema =>
      (schema.layout? "Letter").any fun layout =>
        ((Reader.mk schema {}).readAs "Letter" document none).toOption.any fun graph =>
          (Document.parse true document).casesOn (check schema layout graph) fun _ => false) = true) :
    ∃ schema layout graph tag inside, letter.build = .ok schema ∧
      (Reader.mk schema {}).readAs "Letter" document none = .ok graph ∧
      Document.parse true document = .rooted tag inside ∧ graph.root.id.value = 0 ∧
      let start : Start := ⟨"Letter", tag, inside⟩
      IsEntityAt ⟨schema, true, none⟩ (Start.all schema start) graph.root start layout ∧
      (∀ start' layout', IsEntityAt ⟨schema, true, none⟩ (Start.all schema start) graph.root start' layout' →
        start' = start ∧ layout' = layout) ∧
      check schema layout graph tag inside = true := by
  obtain ⟨schema, built, passes⟩ := Schema.exists_built passes
  simp only [Option.any_eq_true] at passes
  obtain ⟨layout, layoutEq, graph, found, checked⟩ := passes
  have reads := eq_ok_of_toOption found
  obtain ⟨tag, inside, session, documentEq, entityEq, _⟩ := readDocument_eq_ok reads
  simp only [documentEq] at checked
  have isFirst := (numbersFrom_readEntity entityEq).root_id
  have unique (start : Start) (layout' : Layout)
      (isAt : IsEntityAt ⟨schema, true, none⟩ (Start.all schema ⟨"Letter", tag, inside⟩) graph.root start
        layout') : start = ⟨"Letter", tag, inside⟩ ∧ layout' = layout := by
    have startEq := isAt.start_eq
    rw [isFirst] at startEq
    cases startEq
    exact ⟨rfl, Option.some.inj (isAt.layout_eq.symm.trans layoutEq)⟩
  obtain ⟨start, layout', isAt⟩ := exists_isEntityAt entityEq (.self _)
  simp only [ite_self] at isAt
  obtain ⟨rfl, rfl⟩ := unique start layout' isAt
  exact ⟨schema, layout', graph, tag, inside, built, reads, documentEq, congrArg EntityId.value isFirst,
    isAt, unique, checked⟩

/-- Of the two contacts the later one is held, and the label is no list of labels. -/
theorem read_values_lost :
    let document := "<letter from='1' to='2' label='odds'><item>x</item></letter>"
    ∃ schema layout graph tag inside, letter.build = .ok schema ∧
      (Reader.mk schema {}).readAs "Letter" document none = .ok graph ∧
      let context : Context := ⟨schema, true, none⟩
      let start : Start := ⟨"Letter", tag, inside⟩
      let gifts := start.gifts layout true
      IsEntityAt context (Start.all schema start) graph.root start layout ∧
      (∃ field value, .fromAttribute field "1" ∈ gifts ∧
        (Gift.fromAttribute field "1").ReadAs context start value ∧ value.text? = some "1" ∧
        (graph.root.get? field.name).bind (·.text?) = some "2") ∧
      ∃ field item within, .fromChild field item within ∈ gifts ∧ field.declared.isUnwrapped = true ∧
        (graph.root.get? field.name).bind (·.text?) = some "odds" := by
  intro document
  obtain ⟨schema, layout, graph, tag, inside, built, reads, _, _, isAt, _, checked⟩ :=
    @letter_read document
      (fun _ layout graph tag inside =>
        layout.contentField? = none ∧
        tag.attributes.any (fun pair => isOwnAttribute true pair.1 ∧
          (layout.attributeField? pair.1).any fun field =>
            pair.2 = "1" ∧ field.declared.scalarType? = some .text ∧
            (coerce true field.declared .text "1" ⟨tag.position, none⟩).toOption.any (fun value =>
              value.text? = some "1") ∧
            (graph.root.get? field.name).bind (·.text?) = some "2") ∧
        inside.elements.any fun child =>
          (layout.elementField? child.1.name).any fun field =>
            field.declared.isUnwrapped ∧ (graph.root.get? field.name).bind (·.text?) = some "odds")
      (by decide +kernel)
  simp only [List.any_eq_true, Option.any_eq_true, decide_eq_true_eq] at checked
  obtain ⟨noContent, ⟨⟨name, raw⟩, isPair, own, field, fieldEq, rfl, typeEq, ⟨value, valueEq, textEq⟩, heldEq⟩,
    child, isChild, list, listEq, unwrapped, heldEq'⟩ := checked
  have isAttribute : Gift.fromAttribute field "1" ∈ attributeGifts layout true tag.attributes :=
    mem_attributeGifts_iff.2 ⟨_, isPair, own, field, fieldEq, rfl⟩
  have isItem : Gift.fromChild list child.1 child.2 ∈ childGifts layout inside :=
    mem_childGifts_iff.2 ⟨child, isChild, list, listEq, rfl⟩
  refine ⟨schema, layout, graph, tag, inside, built, reads, isAt,
    ⟨field, value, List.mem_append_left _ isAttribute,
      .fromAttribute typeEq (eq_ok_of_toOption valueEq), textEq, heldEq⟩,
    list, child.1, child.2, List.mem_append_right _ ?_, unwrapped, heldEq'⟩
  rw [noContent]
  exact isItem

def Gift.mark (gift : Gift) : String × Bool :=
  (gift.field.name, gift.isItem)

private theorem onlyItems_iff_marks :
    OnlyItems name gifts ↔ ∀ mark ∈ gifts.map Gift.mark, mark.1 = name → mark.2 = true := by
  rw [List.forall_mem_map]
  rfl

private theorem exists_of_map_eq {α β : Type} {f : α → β} {items : List α} {before after : List β}
    {image : β}
    (mapEq : items.map f = before ++ image :: after) :
    ∃ earlier item later, items = earlier ++ item :: later ∧ earlier.map f = before ∧ f item = image ∧
      later.map f = after := by
  obtain ⟨earlier, rest, itemsEq, beforeEq, restEq⟩ := List.map_eq_append_iff.1 mapEq
  obtain ⟨item, later, rfl, imageEq, afterEq⟩ := List.map_eq_cons_iff.1 restEq
  exact ⟨earlier, item, later, itemsEq, beforeEq, imageEq, afterEq⟩

/-- The stamp of a letter and its notes are kept, whatever becomes of contacts and labels. -/
theorem read_values_retained_of_letter :
    let document := "<letter from='1' to='2' stamp='3' label='odds'><note>a</note><item>x</item>" ++
      "<note>b</note></letter>"
    ∃ schema layout graph tag inside, letter.build = .ok schema ∧
      (Reader.mk schema {}).readAs "Letter" document none = .ok graph ∧
      let context : Context := ⟨schema, true, none⟩
      let start : Start := ⟨"Letter", tag, inside⟩
      let gifts := start.gifts layout true
      gifts.map Gift.mark =
        [("contact", false), ("contact", false), ("stamp", false), ("label", false), ("note", true),
          ("label", true), ("note", true)] ∧
      SetOnce gifts ∧
      (∃ gift value, gift ∈ gifts ∧ gift.ReadAs context start value ∧
        graph.root.get? "stamp" = some value ∧ value.text? = some "3") ∧
      ∃ gift value collection items, gift ∈ gifts ∧ gift.isItem = true ∧ gift.ReadAs context start value ∧
        graph.root.get? "note" = some (.collection collection items) ∧
        ∃ other ∈ items, other = value ∨ (collection = .set ∧ other.equal value = true) := by
  intro document
  obtain ⟨schema, layout, graph, tag, inside, built, reads, documentEq, isFirst, _, unique, checked⟩ :=
    @letter_read document
      (fun _ layout graph tag inside =>
        (Start.gifts ⟨"Letter", tag, inside⟩ layout true).map Gift.mark =
          [("contact", false), ("contact", false), ("stamp", false), ("label", false), ("note", true),
            ("label", true), ("note", true)] ∧
        (graph.root.get? "stamp").any (fun value => value.text? = some "3") ∧
        (defaultValues layout ⟨tag.position, none⟩).toOption.any fun defaults =>
          (defaults.get? "note").isNone)
      (by decide +kernel)
  simp only [decide_eq_true_eq, Option.any_eq_true, Option.isNone_iff_eq_none] at checked
  obtain ⟨giftsEq, ⟨stamp, stampEq, textEq⟩, defaults, defaultsEq, noDefault⟩ := checked
  have retained := read_values_retained (Reader.mk schema {}) built "Letter" document none reads
  simp only [ite_self] at retained
  obtain ⟨tag', inside', documentEq', retained⟩ := retained
  cases documentEq.symm.trans documentEq'
  obtain ⟨start, layout', defaults', isAt, defaultsEq', retained⟩ := retained graph.root (.self _)
  obtain ⟨rfl, rfl⟩ := unique start layout' isAt
  cases (eq_ok_of_toOption defaultsEq).symm.trans defaultsEq'
  rw [isFirst] at retained
  obtain ⟨_, once, retained⟩ := retained
  refine ⟨schema, layout', graph, tag, inside, built, reads, giftsEq, once, ?_, ?_⟩
  · obtain ⟨before, gift, after, splitEq, _, giftEq, afterEq⟩ :=
      @exists_of_map_eq _ _ _ _ [("contact", false), ("contact", false)] _ _ giftsEq
    obtain ⟨value, read, kept⟩ := retained before gift after splitEq
    have nameEq : gift.field.name = "stamp" := congrArg Prod.fst giftEq
    have others : ∀ later ∈ after, later.field.name ≠ gift.field.name := by
      have different : ∀ mark ∈ after.map Gift.mark, mark.1 ≠ "stamp" := by
        rw [afterEq]
        decide
      intro later member
      rw [nameEq]
      exact different later.mark (List.mem_map_of_mem member)
    have heldEq := kept.unchanged (congrArg Prod.snd giftEq) others
    rw [nameEq, stampEq] at heldEq
    cases heldEq
    have member : gift ∈ before ++ gift :: after := List.mem_append_right _ List.mem_cons_self
    exact ⟨gift, stamp, splitEq ▸ member, read, stampEq, textEq⟩
  · obtain ⟨before, gift, after, splitEq, beforeEq, giftEq, afterEq⟩ :=
      @exists_of_map_eq _ _ _ _
        [("contact", false), ("contact", false), ("stamp", false), ("label", false)] _ _ giftsEq
    obtain ⟨value, read, kept⟩ := retained before gift after splitEq
    have nameEq : gift.field.name = "note" := congrArg Prod.fst giftEq
    have isItem : gift.isItem = true := congrArg Prod.snd giftEq
    have itemsBefore : OnlyItems gift.field.name before := by
      rw [onlyItems_iff_marks, beforeEq, nameEq]
      decide
    have itemsAfter : OnlyItems gift.field.name after := by
      rw [onlyItems_iff_marks, afterEq, nameEq]
      decide
    rw [← nameEq] at noDefault
    have added := kept.added isItem (.inr ⟨itemsBefore, noDefault⟩) itemsAfter
    rw [nameEq] at added
    obtain ⟨collection, items, heldEq, found⟩ := added
    have member : gift ∈ before ++ gift :: after := List.mem_append_right _ List.mem_cons_self
    exact ⟨gift, value, collection, items, splitEq ▸ member, isItem, read, heldEq, found⟩

end Trellis.Reading
