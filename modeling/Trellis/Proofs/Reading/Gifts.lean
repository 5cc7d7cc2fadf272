import Trellis.Proofs.Reading.Origins

/-!
What the parts of an element give its entity, one after the other.

An attribute, the content or a child that belongs to a field is read as a value, which is kept under
the name of the field.  Several fields may share a name.  Of the values that are set under a name the
last one stays, and an item of an unwrapped list or set is added to whatever the name has by then.
-/

namespace Trellis.Reading

open Trellis.Graph (Entity Value)
open Markup (Content Document Tag)
open Schema (Collection ItemType Layout ScalarType TaggedField)

/-! ### Gifts -/

/-- A part of an entity's element that belongs to a field. -/
inductive Gift where
  | fromAttribute (field : TaggedField) (raw : String)
  | fromContent (field : TaggedField)
  | fromChild (field : TaggedField) (tag : Tag) (inside : Content)

namespace Gift

def field : Gift → TaggedField
  | .fromAttribute field _ | .fromContent field | .fromChild field _ _ => field

/-- What an item is added to if its name has nothing yet; other gifts are no items. -/
def collection? : Gift → Option Collection
  | .fromChild field _ _ =>
      match field.declared.kind with
      | .many collection _ false => some collection
      | _ => none
  | _ => none

def isItem (gift : Gift) : Bool :=
  gift.collection?.isSome

def isWrapped (gift : Gift) : Bool :=
  match gift.field.declared.kind with
  | .many _ _ true => true
  | _ => false

def keep (gift : Gift) (values : FieldValues) (value : Value) : FieldValues :=
  values.set gift.field.name <|
    match gift.collection? with
    | some collection =>
        (((values.get? gift.field.name).getD (.collection collection [])).push value).1
    | none => value

inductive ReadAs (context : Context) (start : Start) : Gift → Value → Prop
  | fromAttribute {field : TaggedField} {raw : String} {type : ScalarType} {value : Value}
      (typeEq : field.declared.scalarType? = some type)
      (read : coerce context.strict field.declared type raw (context.locate start.tag.position) =
        .ok value) :
      ReadAs context start (.fromAttribute field raw) value
  | fromContent {field : TaggedField} {type : ScalarType} {value : Value}
      (typeEq : field.declared.scalarType? = some type)
      (read : context.scalar field.declared type start.tag start.inside = .ok value) :
      ReadAs context start (.fromContent field) value
  | fromChild {field : TaggedField} {tag : Tag} {inside : Content} {value : Value}
      (single : field.declared.isUnwrapped = false)
      (read : ValueFrom context field [(tag, inside)] value) :
      ReadAs context start (.fromChild field tag inside) value
  | item {field : TaggedField} {tag : Tag} {inside : Content} {collection : Collection}
      {type : ItemType} {value : Value} (kindEq : field.declared.kind = .many collection type false)
      (read : ItemFrom context field type (tag, inside) (tag, value)) :
      ReadAs context start (.fromChild field tag inside) value

end Gift

def attributeGifts (layout : Layout) (atRoot : Bool) (attributes : List (String × String)) : List Gift :=
  attributes.filterMap fun pair =>
    if isOwnAttribute atRoot pair.1 then
      (layout.attributeField? pair.1).map (.fromAttribute · pair.2)
    else none

def childGifts (layout : Layout) (inside : Content) : List Gift :=
  inside.elements.filterMap fun child =>
    (layout.elementField? child.1.name).map (.fromChild · child.1 child.2)

/-- What the element gives an entity of the layout, in the order in which it is read. -/
def Start.gifts (start : Start) (layout : Layout) (atRoot : Bool) : List Gift :=
  attributeGifts layout atRoot start.tag.attributes ++
    match layout.contentField? with
    | some field => [.fromContent field]
    | none => childGifts layout start.inside

/-- Keeping the gifts one after the other leads from the first values to the second ones. -/
inductive Keeps (context : Context) (start : Start) : FieldValues → List Gift → FieldValues → Prop
  | nil (values : FieldValues) : Keeps context start values [] values
  | cons {gift : Gift} {rest : List Gift} {values values' : FieldValues} {value : Value}
      (read : gift.ReadAs context start value)
      (keeps : Keeps context start (gift.keep values value) rest values') :
      Keeps context start values (gift :: rest) values'

def OnlyItems (name : String) (gifts : List Gift) : Prop :=
  ∀ gift ∈ gifts, gift.field.name = name → gift.isItem = true

/-- After the gifts, what the name has is a list or set, if it has anything: one is the last that has been
set under it, or else there is no default. -/
def Collects (defaults : FieldValues) (name : String) (gifts : List Gift) : Prop :=
  (∃ early last late, gifts = early ++ last :: late ∧ last.field.name = name ∧
    last.isWrapped = true ∧ OnlyItems name late) ∨
  (OnlyItems name gifts ∧ defaults.get? name = none)

/-- No field is set twice, unless it is an attribute and takes the content too. -/
def SetOnce (gifts : List Gift) : Prop :=
  gifts.Pairwise fun gift later =>
    gift.isItem = false → later.isItem = false → gift.field = later.field →
      (∃ raw, gift = .fromAttribute gift.field raw) ∧ later = .fromContent gift.field

variable {context : Context} {start : Start} {gift : Gift} {gifts before after : List Gift}
  {values values' : FieldValues} {value : Value} {name : String}

/-! ### Single gifts -/

theorem Gift.keep_of_item {collection : Collection} (isItem : gift.collection? = some collection) :
    gift.keep values value = values.set gift.field.name
      (((values.get? gift.field.name).getD (.collection collection [])).push value).1 := by
  rw [Gift.keep, isItem]

theorem Gift.collection?_of_isItem (isItem : gift.isItem = false) : gift.collection? = none :=
  Option.not_isSome_iff_eq_none.1 (Bool.eq_false_iff.1 isItem)

theorem Gift.isItem_of_isWrapped (wrapped : gift.isWrapped = true) : gift.isItem = false := by
  unfold Gift.isWrapped at wrapped
  cases gift with
  | fromChild field tag inside =>
      simp only [Gift.field] at wrapped
      simp only [Gift.isItem, Gift.collection?]
      split at wrapped
      · rename_i kindEq
        rw [kindEq]
        rfl
      · cases wrapped
  | _ => rfl

theorem Gift.keep_of_set (isSet : gift.isItem = false) :
    gift.keep values value = values.set gift.field.name value := by
  rw [Gift.keep, Gift.collection?_of_isItem isSet]

theorem Gift.get?_keep_of_set (isSet : gift.isItem = false) :
    (gift.keep values value).get? gift.field.name = some value := by
  rw [Gift.keep_of_set isSet, OrderedMap.get?_set_self]

theorem Gift.get?_keep_of_ne (other : gift.field.name ≠ name) :
    (gift.keep values value).get? name = values.get? name :=
  OrderedMap.get?_set_of_ne _ _ other

theorem Gift.ReadAs.collection_iff (read : gift.ReadAs context start value) (isSet : gift.isItem = false) :
    (∃ collection items, value = .collection collection items) ↔ gift.isWrapped = true := by
  have ofScalar {type : ScalarType} (typeEq : gift.field.declared.scalarType? = some type)
      (typed : value.HasType type) :
      (∃ collection items, value = .collection collection items) ↔ gift.isWrapped = true := by
    constructor
    · rintro ⟨collection, items, rfl⟩
      cases type <;> exact typed.elim
    · intro wrapped
      unfold Gift.isWrapped at wrapped
      unfold Schema.Field.scalarType? at typeEq
      split at wrapped
      · rename_i kindEq
        rw [kindEq] at typeEq
        cases typeEq
      · cases wrapped
  cases read with
  | fromAttribute typeEq read => exact ofScalar typeEq (coerce_hasType read)
  | fromContent typeEq read => exact ofScalar typeEq (scalar_hasType read)
  | @fromChild field tag inside _ single read =>
      cases read with
      | @scalar type _ _ kindEq read =>
          have typeEq : (Gift.fromChild field tag inside).field.declared.scalarType? = some type := by
            rw [Gift.field, Schema.Field.scalarType?, kindEq]
          exact ofScalar typeEq (scalar_hasType read)
      | entity kindEq _ | map kindEq _ => simp [isWrapped, Gift.field, kindEq]
      | @items collection type wrapped _ _ kindEq _ =>
          cases wrapped with
          | true => simp [isWrapped, Gift.field, kindEq]
          | false =>
              rw [Schema.Field.isUnwrapped_of_kind kindEq] at single
              cases single
  | item kindEq _ =>
      rw [isItem, collection?, kindEq] at isSet
      cases isSet

/-! ### What a name has -/

inductive GrowsTo (value : Value) : Value → Prop
  | same : GrowsTo value value
  | more {collection : Collection} {items : List Value} (added : List Value)
      (valueEq : value = .collection collection items) :
      GrowsTo value (.collection collection (items ++ added))

theorem GrowsTo.eq {held : Value} (grows : GrowsTo value held)
    (single : ∀ collection items, value ≠ .collection collection items) : held = value := by
  cases grows with
  | same => rfl
  | more _ valueEq => exact absurd valueEq (single _ _)

theorem push_collection (collection : Collection) (items : List Value) (item : Value) :
    ∃ added, ((Value.collection collection items).push item).1 = .collection collection (items ++ added) ∧
      ∃ other ∈ items ++ added, other = item ∨ (collection = .set ∧ other.equal item = true) := by
  have last : item ∈ items ++ [item] := List.mem_append_right _ (List.mem_singleton_self item)
  cases collection with
  | list => exact ⟨[item], rfl, item, last, .inl rfl⟩
  | set =>
      rw [Value.push]
      by_cases known : items.any (·.equal item) = true
      · obtain ⟨other, member, equal⟩ := List.any_eq_true.1 known
        refine ⟨[], ?_, other, List.mem_append_left _ member, .inr ⟨rfl, equal⟩⟩
        rw [if_pos known, List.append_nil]
      · refine ⟨[item], ?_, item, last, .inl rfl⟩
        rw [if_neg known]

theorem push_of_single {held : Value} (single : ∀ collection items, held ≠ .collection collection items)
    (item : Value) : held.push item = (held, none) := by
  cases held with
  | collection collection items => exact absurd rfl (single collection items)
  | _ => rfl

theorem GrowsTo.push {held : Value} (grows : GrowsTo value held) (item : Value) :
    GrowsTo value (held.push item).1 := by
  cases grows with
  | same =>
      cases value with
      | collection collection items =>
          obtain ⟨added, pushedEq, _⟩ := push_collection collection items item
          rw [pushedEq]
          exact .more added rfl
      | _ => exact .same
  | @more collection items earlier valueEq =>
      obtain ⟨added, pushedEq, _⟩ := push_collection collection (items ++ earlier) item
      rw [pushedEq, List.append_assoc]
      exact .more _ valueEq

/-! ### Rows of gifts -/

namespace Keeps

theorem append {between : FieldValues} (keeps : Keeps context start values before between)
    (keeps' : Keeps context start between after values') :
    Keeps context start values (before ++ after) values' := by
  induction keeps with
  | nil => exact keeps'
  | cons read _ ih => exact .cons read (ih keeps')

theorem split (keeps : Keeps context start values (before ++ after) values') :
    ∃ between, Keeps context start values before between ∧ Keeps context start between after values' := by
  induction before generalizing values with
  | nil => exact ⟨values, .nil values, keeps⟩
  | cons gift rest ih =>
      cases keeps with
      | cons read keeps =>
          obtain ⟨between, keepsRest, keepsAfter⟩ := ih keeps
          exact ⟨between, .cons read keepsRest, keepsAfter⟩

theorem same (keeps : Keeps context start values gifts values')
    (others : ∀ gift ∈ gifts, gift.field.name ≠ name) : values'.get? name = values.get? name := by
  induction keeps with
  | nil => rfl
  | cons _ _ ih =>
      obtain ⟨other, others⟩ := List.forall_mem_cons.1 others
      rw [ih others, Gift.get?_keep_of_ne other]

theorem grows {first held : Value} (keeps : Keeps context start values gifts values')
    (items : OnlyItems name gifts) (heldEq : values.get? name = some held) (grown : GrowsTo first held) :
    ∃ held', values'.get? name = some held' ∧ GrowsTo first held' := by
  induction keeps generalizing held with
  | nil => exact ⟨held, heldEq, grown⟩
  | @cons gift _ values _ value _ _ ih =>
      obtain ⟨here, items⟩ := List.forall_mem_cons.1 items
      by_cases nameEq : gift.field.name = name
      · obtain ⟨collection, isItem⟩ := Option.isSome_iff_exists.1 (here nameEq)
        refine ih items ?_ (grown.push value)
        rw [Gift.keep_of_item isItem, nameEq, heldEq, Option.getD_some, OrderedMap.get?_set_self]
      · exact ih items ((Gift.get?_keep_of_ne nameEq).trans heldEq) grown

theorem collects (keeps : Keeps context start values gifts values') (items : OnlyItems name gifts)
    (few : ∀ held, values.get? name = some held → ∃ collection items, held = .collection collection items) :
    ∀ held, values'.get? name = some held → ∃ collection items, held = .collection collection items := by
  induction keeps with
  | nil => exact few
  | @cons gift _ values _ value _ _ ih =>
      obtain ⟨here, items⟩ := List.forall_mem_cons.1 items
      refine ih items ?_
      intro held heldEq
      by_cases nameEq : gift.field.name = name
      · obtain ⟨collection, isItem⟩ := Option.isSome_iff_exists.1 (here nameEq)
        rw [Gift.keep_of_item isItem, nameEq, OrderedMap.get?_set_self] at heldEq
        cases heldEq
        cases beforeEq : values.get? name with
        | none =>
            obtain ⟨added, pushedEq, _⟩ := push_collection collection [] value
            exact ⟨collection, _, pushedEq⟩
        | some held =>
            obtain ⟨collection, items, rfl⟩ := few held beforeEq
            obtain ⟨added, pushedEq, _⟩ := push_collection collection items value
            exact ⟨collection, _, pushedEq⟩
      · rw [Gift.get?_keep_of_ne nameEq] at heldEq
        exact few held heldEq

/-- What is set under a name stays until something else is set under it. -/
theorem grows_of_set (keeps : Keeps context start values (before ++ gift :: after) values')
    (isSet : gift.isItem = false) (items : OnlyItems gift.field.name after) :
    ∃ value held, gift.ReadAs context start value ∧ values'.get? gift.field.name = some held ∧
      GrowsTo value held := by
  obtain ⟨between, _, keeps⟩ := keeps.split
  cases keeps with
  | @cons _ _ _ _ value read keeps =>
      obtain ⟨held, heldEq, grows⟩ := keeps.grows items (Gift.get?_keep_of_set isSet) .same
      exact ⟨value, held, read, heldEq, grows⟩

end Keeps

/-- Unless nothing but items is added under a name, some gift is the last to set it. -/
theorem exists_last_set (name : String) (gifts : List Gift) :
    OnlyItems name gifts ∨ ∃ early last late, gifts = early ++ last :: late ∧ last.field.name = name ∧
      last.isItem = false ∧ OnlyItems name late := by
  induction gifts with
  | nil => exact .inl fun gift member => absurd member List.not_mem_nil
  | cons gift rest ih =>
      rcases ih with items | ⟨early, last, late, rfl, found⟩
      · by_cases here : gift.field.name = name → gift.isItem = true
        · exact .inl (List.forall_mem_cons.2 ⟨here, items⟩)
        · obtain ⟨nameEq, isSet⟩ := Classical.not_imp.1 here
          exact .inr ⟨[], gift, rest, rfl, nameEq, Bool.eq_false_iff.2 isSet, items⟩
      · exact .inr ⟨gift :: early, last, late, rfl, found⟩

/-! ### Reading -/

section Reading

variable {frame : Frame} {tag : Tag} {inside : Content} {atRoot : Bool} {layout : Layout}
  {attributes : List (String × String)} {session session' : Session}

theorem Gift.isItem_fromChild (field : TaggedField) (tag : Tag) (inside : Content) :
    (Gift.fromChild field tag inside).isItem = field.declared.isUnwrapped := by
  simp only [Gift.isItem, Gift.collection?, Schema.Field.isUnwrapped]
  cases field.declared.kind with
  | many collection type wrapped => cases wrapped <;> rfl
  | _ => rfl

private theorem readAttributes_keeps (placed : frame.layout.Placed)
    (locationEq : frame.location = context.locate start.tag.position)
    (runs : context.readAttributes frame tag atRoot values attributes session = .ok (values', session')) :
    Keeps context start values (attributeGifts frame.layout atRoot attributes) values' := by
  induction attributes generalizing values session with
  | nil =>
      cases runs
      exact .nil _
  | cons pair rest ih =>
      obtain ⟨between, middle, goesOn, here⟩ := readAttributes_cons_eq_ok runs
      rcases here with ⟨field, type, value, own, routeEq, typeEq, coerceEq, rfl⟩ | ⟨rfl, unset⟩
      · rw [locationEq] at coerceEq
        have giftsEq : attributeGifts frame.layout atRoot (pair :: rest) =
            .fromAttribute field pair.2 :: attributeGifts frame.layout atRoot rest := by
          rw [attributeGifts, List.filterMap_cons, if_pos own, routeEq]
          rfl
        rw [giftsEq]
        exact .cons (.fromAttribute typeEq coerceEq) (ih goesOn)
      · have giftsEq : attributeGifts frame.layout atRoot (pair :: rest) =
            attributeGifts frame.layout atRoot rest := by
          rw [attributeGifts, List.filterMap_cons_none]
          · rfl
          · by_cases own : isOwnAttribute atRoot pair.1 = true
            · rw [if_pos own, Option.map_eq_none_iff, Option.eq_none_iff_forall_ne_some]
              intro field routeEq
              obtain ⟨member, isAttribute⟩ := attributeField?_mem routeEq
              obtain ⟨type, typeEq⟩ := placed.scalarType? member (.inl isAttribute)
              exact unset field type own routeEq typeEq
            · exact if_neg own
        rw [giftsEq]
        exact ih goesOn

private theorem readField_keeps {field : TaggedField}
    (runs : context.readField frame values field tag inside session = .ok (values', session')) :
    ∃ value, (Gift.fromChild field tag inside).ReadAs context start value ∧
      values' = (Gift.fromChild field tag inside).keep values value := by
  cases unwrapped : field.declared.isUnwrapped with
  | false =>
      obtain ⟨value, valuesEq, valueFrom⟩ := readField_single unwrapped runs
      refine ⟨value, .fromChild unwrapped valueFrom, ?_⟩
      rw [Gift.keep_of_set ((Gift.isItem_fromChild field tag inside).trans unwrapped)]
      exact valuesEq
  | true =>
      obtain ⟨collection, type, kindEq⟩ := Schema.Field.kind_of_isUnwrapped unwrapped
      obtain ⟨item, itemFrom, valuesEq⟩ := readField_item kindEq runs
      refine ⟨item, .item kindEq itemFrom, ?_⟩
      have isItem : (Gift.fromChild field tag inside).collection? = some collection := by
        rw [Gift.collection?, kindEq]
      rw [Gift.keep_of_item isItem]
      exact valuesEq

private theorem childGifts_element (layout : Layout) (tag : Tag) (inside rest : Content) :
    childGifts layout (.element tag inside rest) =
      ((layout.elementField? tag.name).map (Gift.fromChild · tag inside)).toList ++
        childGifts layout rest := by
  unfold childGifts
  rw [Content.elements, List.filterMap_cons]
  cases layout.elementField? tag.name with
  | none => rfl
  | some field => rfl

private theorem readChildren_keeps {seen : List String}
    (runs : context.readChildren frame values seen inside session = .ok (values', session')) :
    Keeps context start values (childGifts frame.layout inside) values' ∧
      (childGifts frame.layout inside).Pairwise (fun gift later =>
        gift.isItem = false → later.isItem = false → gift.field.tag ≠ later.field.tag) ∧
      ∀ gift ∈ childGifts frame.layout inside, gift.isItem = false → gift.field.tag ∉ seen := by
  induction inside generalizing values seen session with
  | closed encoding =>
      cases runs
      exact ⟨.nil _, .nil, fun gift member => absurd member List.not_mem_nil⟩
  | broken ending => cases runs
  | text position text rest ih =>
      obtain ⟨_, _, goesOn⟩ := Read.lift_bind_eq_ok runs
      exact ih goesOn
  | element child within rest _ ih =>
      simp only [Context.readChildren] at runs
      rw [childGifts_element]
      cases routeEq : frame.layout.elementField? child.name with
      | none =>
          simp only [routeEq] at runs
          obtain ⟨_, _, goesOn⟩ := Read.lift_bind_eq_ok runs
          exact ih goesOn
      | some field =>
          simp only [routeEq] at runs
          obtain ⟨seen', takesEq, goesOn⟩ := Read.lift_bind_eq_ok runs
          obtain ⟨between, middle, fieldRun, goesOn⟩ := Read.bind_eq_ok goesOn
          obtain ⟨kept, takesOne⟩ := takesOnce_of_takeTag takesEq
          obtain ⟨value, read, rfl⟩ := readField_keeps fieldRun
          obtain ⟨keeps, apart, fresh⟩ := ih goesOn
          rw [Option.map_some, Option.toList_some, List.singleton_append]
          have isItemEq := Gift.isItem_fromChild field child within
          refine ⟨.cons read keeps, List.pairwise_cons.2 ⟨?_, apart⟩, List.forall_mem_cons.2 ⟨?_, ?_⟩⟩
          · intro later member isSet laterSet tagEq
            rw [isItemEq] at isSet
            have known : later.field.tag ∈ seen' := tagEq ▸ (takesOne isSet).2
            exact fresh later member laterSet known
          · intro isSet
            rw [isItemEq] at isSet
            exact (takesOne isSet).1
          · intro later member laterSet known
            exact fresh later member laterSet (kept known)

/-- The fields of an entity are its defaults with what its element gives it, in order. -/
theorem readEntity_keeps {className : String} {entity : Entity}
    (layoutEq : context.schema.layout? className = some layout) (placed : layout.Placed)
    (runs : context.readEntity className tag inside atRoot session = .ok (entity, session')) :
    ∃ defaults, defaultValues layout (context.locate tag.position) = .ok defaults ∧
      Keeps context ⟨className, tag, inside⟩ defaults
        (Start.gifts ⟨className, tag, inside⟩ layout atRoot) entity.fields := by
  obtain ⟨frame, values, begun, values', begins, goesOn, rfl⟩ := entity_eq_ok runs
  obtain rfl : frame.layout = layout :=
    Option.some.inj ((beginEntity_layout? begins).symm.trans layoutEq)
  obtain ⟨resolved, _, _, frameEq, _, defaults, defaultsEq, attributesEq⟩ := beginEntity_eq_ok begins
  have sameLayout : resolved.layout = frame.layout := by
    rw [frameEq]
  have locationEq : frame.location = context.locate tag.position := by
    rw [frameEq]
  rw [sameLayout, locationEq] at defaultsEq
  have given : Keeps context ⟨className, tag, inside⟩ defaults
      (attributeGifts frame.layout atRoot tag.attributes) values :=
    readAttributes_keeps placed locationEq attributesEq
  refine ⟨defaults, defaultsEq, given.append ?_⟩
  cases contentEq : frame.layout.contentField? with
  | some field =>
      simp only [contentEq] at goesOn
      obtain ⟨type, typeEq⟩ := placed.content_scalarType? contentEq
      obtain ⟨value, scalarEq, rfl⟩ := readContentField_eq_ok typeEq goesOn
      exact .cons (.fromContent typeEq scalarEq) (.nil _)
  | none =>
      simp only [contentEq] at goesOn
      exact (readChildren_keeps goesOn).1

/-! ### Fields that are set once -/

theorem mem_attributeGifts_iff :
    gift ∈ attributeGifts layout atRoot attributes ↔
      ∃ pair ∈ attributes, isOwnAttribute atRoot pair.1 = true ∧
        ∃ field, layout.attributeField? pair.1 = some field ∧ gift = .fromAttribute field pair.2 := by
  simp only [attributeGifts, List.mem_filterMap, Option.ite_none_right_eq_some, Option.map_eq_some_iff,
    eq_comm (b := gift)]

theorem mem_childGifts_iff :
    gift ∈ childGifts layout inside ↔
      ∃ child ∈ inside.elements, ∃ field, layout.elementField? child.1.name = some field ∧
        gift = .fromChild field child.1 child.2 := by
  simp only [childGifts, List.mem_filterMap, Option.map_eq_some_iff, eq_comm (b := gift)]

private theorem attributeGifts_apart (distinct : (attributes.map (·.1)).Nodup) :
    (attributeGifts layout atRoot attributes).Pairwise fun gift later => gift.field ≠ later.field := by
  induction attributes with
  | nil => exact .nil
  | cons pair rest ih =>
      obtain ⟨new, restDistinct⟩ := List.nodup_cons.1 distinct
      rw [attributeGifts, List.filterMap_cons]
      split
      · exact ih restDistinct
      · rename_i gift giftEq
        refine List.pairwise_cons.2 ⟨?_, ih restDistinct⟩
        intro later member same
        have here : gift ∈ attributeGifts layout atRoot [pair] := by
          rw [attributeGifts, List.filterMap_cons, giftEq]
          exact List.mem_cons_self
        obtain ⟨first, isFirst, _, field, routeEq, rfl⟩ := mem_attributeGifts_iff.1 here
        obtain rfl := List.mem_singleton.1 isFirst
        obtain ⟨other, isOther, _, field', routeEq', rfl⟩ := mem_attributeGifts_iff.1 member
        obtain rfl : field = field' := same
        have sameName : other.1 = first.1 :=
          (tag_eq_of_attributeField? routeEq').symm.trans (tag_eq_of_attributeField? routeEq)
        exact new (List.mem_map.2 ⟨other, isOther, sameName⟩)

theorem readEntity_setOnce {className : String} {entity : Entity}
    (layoutEq : context.schema.layout? className = some layout)
    (distinct : (tag.attributes.map (·.1)).Nodup)
    (runs : context.readEntity className tag inside atRoot session = .ok (entity, session')) :
    SetOnce (Start.gifts ⟨className, tag, inside⟩ layout atRoot) := by
  obtain ⟨frame, values, begun, values', begins, goesOn, rfl⟩ := entity_eq_ok runs
  obtain rfl : frame.layout = layout :=
    Option.some.inj ((beginEntity_layout? begins).symm.trans layoutEq)
  have attributesApart : SetOnce (attributeGifts frame.layout atRoot tag.attributes) :=
    (attributeGifts_apart distinct).imp fun apart _ _ same => absurd same apart
  unfold SetOnce Start.gifts
  cases contentEq : frame.layout.contentField? with
  | some field =>
      refine List.pairwise_append.2 ⟨attributesApart, List.pairwise_singleton _ _, ?_⟩
      intro gift member later isLater _ _ same
      obtain ⟨pair, _, _, other, _, rfl⟩ := mem_attributeGifts_iff.1 member
      obtain rfl := List.mem_singleton.1 isLater
      obtain rfl : other = field := same
      exact ⟨⟨pair.2, rfl⟩, rfl⟩
  | none =>
      simp only [contentEq] at goesOn
      obtain ⟨_, childrenApart, _⟩ := @readChildren_keeps context ⟨className, tag, inside⟩ _ _ _ _ _ _ _ goesOn
      have childrenOnce : SetOnce (childGifts frame.layout inside) :=
        childrenApart.imp fun apart isSet laterSet same =>
          absurd (congrArg TaggedField.tag same) (apart isSet laterSet)
      refine List.pairwise_append.2 ⟨attributesApart, childrenOnce, ?_⟩
      intro gift member later isLater _ _ same
      obtain ⟨pair, _, _, field, attributeEq, rfl⟩ := mem_attributeGifts_iff.1 member
      obtain ⟨child, _, other, elementEq, rfl⟩ := mem_childGifts_iff.1 isLater
      obtain rfl : field = other := same
      have isAttribute := (attributeField?_mem attributeEq).2
      have isElement : field ∈ frame.layout.elementFields := List.mem_of_find?_eq_some elementEq
      rw [(not_isAttribute_of_elementFields isElement).1] at isAttribute
      cases isAttribute

end Reading

end Trellis.Reading
