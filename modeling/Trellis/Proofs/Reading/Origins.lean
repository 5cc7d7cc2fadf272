import Trellis.Proofs.Markup.Attributes
import Trellis.Proofs.Reading.Records
import Trellis.Proofs.Schema.Places

/-!
Where the values of an entity come from.

Values are kept by the names of fields, but attributes and children find their fields by tags.  A
field that shares its name with no other field of its class holds at the end what has been read for
it: its attribute, all the content of the entity, or the children that belong to it.  Where there is
none of these it has its default at most.
-/

namespace Trellis.Reading

open Trellis.Graph (Entity IsDefault Value)
open Markup (Content Document Tag Token)
open Schema (Collection FieldKind ItemType Layout MapEncoding ScalarType TaggedField)

/-! ### Statements -/

def Read.ComesTo {α : Type} (read : Read α) (value : α) : Prop :=
  ∃ session session', read session = .ok (value, session')

def ItemFrom (context : Context) (field : TaggedField) (type : ItemType) (element : Tag × Content)
    (item : Tag × Value) : Prop :=
  item.1 = element.1 ∧
    (context.item field type element.1 element.2 (context.childrenIn element.2)).ComesTo item.2

/-- The value is what the children that belong to the field are read as.  There is one of them unless
the field is an unwrapped list or set. -/
inductive ValueFrom (context : Context) (field : TaggedField) : List (Tag × Content) → Value → Prop
  | scalar {type : ScalarType} {child : Tag × Content} {value : Value}
      (kindEq : field.declared.kind = .scalar type)
      (read : context.scalar field.declared type child.1 child.2 = .ok value) :
      ValueFrom context field [child] value
  | entity {target : String} {child : Tag × Content} {entity : Entity}
      (kindEq : field.declared.kind = .one target)
      (read : (context.readEntity target child.1 child.2 false).ComesTo entity) :
      ValueFrom context field [child] (.entity entity)
  | items {collection : Collection} {type : ItemType} {wrapped : Bool}
      {children : List (Tag × Content)} {items : List (Tag × Value)}
      (kindEq : field.declared.kind = .many collection type wrapped)
      (read : List.Forall₂ (ItemFrom context field type) (itemElements field wrapped children) items) :
      ValueFrom context field children (.collection collection ((keptItems collection items).map (·.2)))
  | map {encoding : MapEncoding} {child : Tag × Content} {id : EntityId}
      {texts : OrderedMap String String} (kindEq : field.declared.kind = .map encoding)
      (read : (context.readEntries id field encoding [] child.2).ComesTo texts) :
      ValueFrom context field [child] (.map texts)

/-- What a field holds when these children have been read for it, and it has begun with `first`. -/
def Gathered (context : Context) (field : TaggedField) (first : Option Value)
    (children : List (Tag × Content)) (value : Option Value) : Prop :=
  (children = [] ∧ value = first) ∨
    (children ≠ [] ∧ ∃ read, value = some read ∧ ValueFrom context field children read)

variable {context : Context} {id : EntityId} {field : TaggedField} {session session' : Session}

/-! ### Children -/

theorem readItems_items {collection : Collection} {type : ItemType} {content : Content}
    {items : List (Tag × Value)} {holder value : Value}
    (runs : context.readItems id field collection type holder content session = .ok (value, session'))
    (holderEq : holder = .collection collection ((keptItems collection items).map (·.2))) :
    ∃ more,
      List.Forall₂ (ItemFrom context field type) (content.elements.filter (·.1.name = field.itemTag))
        more ∧
      value = .collection collection ((keptItems collection (items ++ more)).map (·.2)) := by
  induction content generalizing items holder session with
  | closed encoding =>
      cases runs
      rw [← List.append_nil items] at holderEq
      exact ⟨[], .nil, holderEq⟩
  | broken ending => cases runs
  | text position text rest ih =>
      obtain ⟨_, _, goesOn⟩ := Read.lift_bind_eq_ok runs
      exact ih goesOn holderEq
  | element tag inside rest _ ih =>
      simp only [Context.readItems] at runs
      split at runs
      · rename_i same
        obtain ⟨item, _, itemRun, goesOn⟩ := Read.bind_eq_ok runs
        obtain ⟨pushed, _, adds, goesOn⟩ := Read.bind_eq_ok goesOn
        have pushedEq := addItem_eq_ok adds
        rw [holderEq, push_kept collection _ (tag, item), ← keptItems_concat] at pushedEq
        obtain ⟨more, read, valueEq⟩ := ih goesOn pushedEq
        rw [List.append_assoc] at valueEq
        refine ⟨(tag, item) :: more, ?_, valueEq⟩
        rw [Content.elements, List.filter_cons_of_pos (by simpa using same)]
        exact .cons ⟨rfl, _, _, itemRun⟩ read
      · rename_i other
        obtain ⟨_, _, goesOn⟩ := Read.lift_bind_eq_ok runs
        rw [Content.elements, List.filter_cons_of_neg (by simpa using other)]
        exact ih goesOn holderEq

section Child

variable {frame : Frame} {values values' : FieldValues} {tag : Tag} {inside : Content}
  {first value : Option Value} {children : List (Tag × Content)}

theorem Gathered.items {collection : Collection} {type : ItemType}
    (gathered : Gathered context field none children value)
    (kindEq : field.declared.kind = .many collection type false) :
    ∃ items, List.Forall₂ (ItemFrom context field type) children items ∧
      value.getD (.collection collection []) =
        .collection collection ((keptItems collection items).map (·.2)) := by
  rcases gathered with ⟨rfl, rfl⟩ | ⟨_, read, rfl, from_⟩
  · exact ⟨[], .nil, rfl⟩
  · cases from_ with
    | scalar otherKind | entity otherKind | map otherKind =>
        rw [otherKind] at kindEq
        cases kindEq
    | items sameKind read =>
        rw [sameKind] at kindEq
        cases kindEq
        exact ⟨_, read, rfl⟩

theorem readField_single (single : field.declared.isUnwrapped = false)
    (runs : context.readField frame values field tag inside session = .ok (values', session')) :
    ∃ read, values' = values.set field.name read ∧ ValueFrom context field [(tag, inside)] read := by
  unfold Context.readField Context.field at runs
  unfold Schema.Field.isUnwrapped at single
  cases kindEq : field.declared.kind with
  | scalar type =>
      simp only [kindEq] at runs
      obtain ⟨value, scalarEq, goesOn⟩ := Read.lift_bind_eq_ok runs
      obtain ⟨_, _, _, ends⟩ := Read.bind_eq_ok goesOn
      cases ends
      exact ⟨value, rfl, .scalar kindEq scalarEq⟩
  | one target =>
      simp only [kindEq] at runs
      obtain ⟨entity, _, entityRun, ends⟩ := Read.bind_eq_ok runs
      cases ends
      exact ⟨_, rfl, .entity kindEq ⟨_, _, entityRun⟩⟩
  | many collection type wrapped =>
      cases wrapped with
      | true =>
          simp only [kindEq] at runs
          obtain ⟨_, _, _, goesOn⟩ := Read.bind_eq_ok runs
          obtain ⟨holder, _, itemsRun, ends⟩ := Read.bind_eq_ok goesOn
          cases ends
          have began : Value.collection collection [] =
              .collection collection ((keptItems collection []).map (·.2)) := rfl
          obtain ⟨items, read, holderEq⟩ := readItems_items itemsRun began
          refine ⟨holder, rfl, ?_⟩
          rw [holderEq]
          refine .items kindEq ?_
          simpa only [itemElements, if_true, List.nil_append, List.flatMap_cons, List.flatMap_nil,
            List.append_nil] using read
      | false =>
          simp only [kindEq] at single
          cases single
  | map encoding =>
      simp only [kindEq] at runs
      obtain ⟨_, _, _, goesOn⟩ := Read.bind_eq_ok runs
      obtain ⟨texts, _, entriesRun, ends⟩ := Read.bind_eq_ok goesOn
      cases ends
      exact ⟨_, rfl, .map kindEq ⟨_, _, entriesRun⟩⟩

theorem readField_item {collection : Collection} {type : ItemType}
    (kindEq : field.declared.kind = .many collection type false)
    (runs : context.readField frame values field tag inside session = .ok (values', session')) :
    ∃ item, ItemFrom context field type (tag, inside) (tag, item) ∧
      values' = values.set field.name
        (((values.get? field.name).getD (.collection collection [])).push item).1 := by
  unfold Context.readField Context.field at runs
  simp only [kindEq] at runs
  obtain ⟨item, _, itemRun, keeps⟩ := Read.bind_eq_ok runs
  exact ⟨item, ⟨rfl, _, _, itemRun⟩, keepItem_eq_ok keeps⟩

private theorem readField_gathered
    (runs : context.readField frame values field tag inside session = .ok (values', session'))
    (single : field.declared.isUnwrapped = false → children = [])
    (unread : field.declared.scalarType? = none → first = none)
    (gathered : Gathered context field first children (values.get? field.name)) :
    Gathered context field first (children ++ [(tag, inside)]) (values'.get? field.name) := by
  refine .inr ⟨List.append_ne_nil_of_right_ne_nil _ (List.cons_ne_nil _ _), ?_⟩
  cases unwrapped : field.declared.isUnwrapped with
  | false =>
      obtain ⟨read, rfl, valueFrom⟩ := readField_single unwrapped runs
      rw [single unwrapped]
      exact ⟨read, OrderedMap.get?_set_self _ _ _, valueFrom⟩
  | true =>
      obtain ⟨collection, type, kindEq⟩ := Schema.Field.kind_of_isUnwrapped unwrapped
      obtain ⟨item, itemFrom, rfl⟩ := readField_item kindEq runs
      have noScalar : field.declared.scalarType? = none := by
        rw [Schema.Field.scalarType?, kindEq]
      rw [unread noScalar] at gathered
      obtain ⟨items, read, holderEq⟩ := gathered.items kindEq
      rw [holderEq, push_kept collection _ (tag, item), ← keptItems_concat]
      exact ⟨_, OrderedMap.get?_set_self _ _ _,
        .items kindEq (List.rel_append read (.cons itemFrom .nil))⟩

end Child

theorem readChildren_gathered {frame : Frame} {values values' : FieldValues} {seen : List String}
    {content : Content} {first : Option Value} {children : List (Tag × Content)}
    (sole : frame.layout.Sole field)
    (runs : context.readChildren frame values seen content session = .ok (values', session'))
    (taken : field.declared.isUnwrapped = false → children = [] ∨ field.tag ∈ seen)
    (unread : field.declared.scalarType? = none → first = none)
    (gathered : Gathered context field first children (values.get? field.name)) :
    Gathered context field first (children ++ routed frame.layout field content)
      (values'.get? field.name) := by
  induction content generalizing values seen session children with
  | closed encoding =>
      cases runs
      rw [routed, Content.elements, List.filter_nil, List.append_nil]
      exact gathered
  | broken ending => cases runs
  | text position text rest ih =>
      obtain ⟨_, _, goesOn⟩ := Read.lift_bind_eq_ok runs
      exact ih goesOn taken gathered
  | element tag inside rest _ ih =>
      simp only [Context.readChildren] at runs
      rw [routed_element]
      cases routeEq : frame.layout.elementField? tag.name with
      | none =>
          simp only [routeEq] at runs
          obtain ⟨_, _, goesOn⟩ := Read.lift_bind_eq_ok runs
          rw [if_neg (Option.some_ne_none field).symm]
          exact ih goesOn taken gathered
      | some other =>
          simp only [routeEq] at runs
          obtain ⟨seen', takesEq, goesOn⟩ := Read.lift_bind_eq_ok runs
          obtain ⟨between, middle, fieldRun, goesOn⟩ := Read.bind_eq_ok goesOn
          obtain ⟨kept, takesOne⟩ := takesOnce_of_takeTag takesEq
          by_cases same : other = field
          · subst same
            have single (single : other.declared.isUnwrapped = false) : children = [] :=
              (taken single).resolve_right (takesOne single).1
            rw [if_pos rfl, List.append_cons]
            exact ih goesOn (fun single => .inr (takesOne single).2)
              (readField_gathered fieldRun single unread gathered)
          · have otherMember := Layout.mem_fields_of_elementField? routeEq
            have otherName : other.name ≠ field.name := fun equal => same (sole other otherMember equal)
            obtain ⟨value, valuesEq⟩ := readField_eq_set fieldRun
            rw [← OrderedMap.get?_set_of_ne values value otherName, ← valuesEq] at gathered
            rw [if_neg fun equal => same (Option.some.inj equal)]
            exact ih goesOn (fun single => (taken single).imp_right fun known => kept known) gathered

/-! ### Start tags -/

def attributesOf (layout : Layout) (atRoot : Bool) (field : TaggedField)
    (attributes : List (String × String)) : List (String × String) :=
  attributes.filter fun pair =>
    isOwnAttribute atRoot pair.1 && layout.attributeField? pair.1 = some field

theorem mem_attributesOf_iff {layout : Layout} {atRoot : Bool} {attributes : List (String × String)}
    {pair : String × String} :
    pair ∈ attributesOf layout atRoot field attributes ↔ pair ∈ attributes ∧
      isOwnAttribute atRoot pair.1 = true ∧ layout.attributeField? pair.1 = some field := by
  simp only [attributesOf, List.mem_filter, Bool.and_eq_true, decide_eq_true_eq]

theorem tag_eq_of_attributeField? {layout : Layout} {name : String}
    (found : layout.attributeField? name = some field) : field.tag = name := by
  have marks := List.find?_some found
  simp only [Bool.and_eq_true, beq_iff_eq] at marks
  exact marks.2

theorem defaultValues_get? {layout : Layout} {location : Location} {values : FieldValues}
    (sole : layout.Sole field) (read : defaultValues layout location = .ok values) :
    ∀ value, values.get? field.name = some value → IsDefault field.declared value := by
  refine @defaultValues_induction layout location
    (fun values => ∀ value, values.get? field.name = some value → IsDefault field.declared value)
    ?_ ?_ values read
  · intro value found
    cases found
  · intro other member text type before value defaultEq typeEq coerceEq known bound found
    rw [OrderedMap.get?_set] at found
    by_cases same : other.name = field.name
    · rw [if_pos same] at found
      cases found
      rw [← sole other member same]
      exact ⟨text, type, location, defaultEq, typeEq, coerceEq⟩
    · rw [if_neg same] at found
      exact known bound found

section StartTag

variable {frame : Frame} {tag : Tag} {atRoot : Bool} {values values' : FieldValues}
  {attributes : List (String × String)}

theorem readAttributes_cons_eq_ok {name raw : String}
    (runs : context.readAttributes frame tag atRoot values ((name, raw) :: attributes) session =
      .ok (values', session')) :
    ∃ between middle,
      context.readAttributes frame tag atRoot between attributes middle = .ok (values', session') ∧
      ((∃ other type value, isOwnAttribute atRoot name = true ∧
          frame.layout.attributeField? name = some other ∧
          other.declared.scalarType? = some type ∧
          coerce context.strict other.declared type raw frame.location = .ok value ∧
          between = values.set other.name value) ∨
        (between = values ∧ ∀ other type, isOwnAttribute atRoot name = true →
          frame.layout.attributeField? name = some other →
          other.declared.scalarType? ≠ some type)) := by
  simp only [Context.readAttributes] at runs
  split at runs
  · rename_i own
    cases routeEq : frame.layout.attributeField? name with
    | none =>
        simp only [routeEq] at runs
        split at runs
        · cases runs
        · refine ⟨values, session, runs, .inr ⟨rfl, ?_⟩⟩
          intro other type _ impossible
          cases impossible
    | some other =>
        simp only [routeEq] at runs
        cases typeEq : other.declared.scalarType? with
        | none =>
            simp only [typeEq] at runs
            refine ⟨values, session, runs, .inr ⟨rfl, ?_⟩⟩
            intro same type _ sameEq
            cases sameEq
            rw [typeEq]
            exact (Option.some_ne_none type).symm
        | some type =>
            simp only [typeEq] at runs
            obtain ⟨value, coerceEq, goesOn⟩ := Read.lift_bind_eq_ok runs
            obtain ⟨_, middle, _, goesOn⟩ := Read.bind_eq_ok goesOn
            exact ⟨_, middle, goesOn, .inl ⟨other, type, value, own, rfl, typeEq, coerceEq, rfl⟩⟩
  · rename_i foreign
    exact ⟨values, session, runs, .inr ⟨rfl, fun _ _ own => absurd own foreign⟩⟩

theorem readAttributes_same (sole : frame.layout.Sole field)
    (none : attributesOf frame.layout atRoot field attributes = [])
    (runs : context.readAttributes frame tag atRoot values attributes session = .ok (values', session')) :
    values'.get? field.name = values.get? field.name := by
  induction attributes generalizing values session with
  | nil =>
      cases runs
      rfl
  | cons pair rest ih =>
      obtain ⟨between, middle, goesOn, here⟩ := readAttributes_cons_eq_ok runs
      have restNone : attributesOf frame.layout atRoot field rest = [] :=
        List.filter_eq_nil_iff.2 fun other member =>
          List.filter_eq_nil_iff.1 none other (List.mem_cons_of_mem _ member)
      rw [ih restNone goesOn]
      rcases here with ⟨other, type, value, own, routeEq, _, _, rfl⟩ | ⟨rfl, _⟩
      · refine OrderedMap.get?_set_of_ne _ _ ?_
        intro same
        rw [sole other (attributeField?_mem routeEq).1 same] at routeEq
        have belongs : pair ∈ attributesOf frame.layout atRoot field (pair :: rest) :=
          mem_attributesOf_iff.2 ⟨List.mem_cons_self, own, routeEq⟩
        rw [none] at belongs
        cases belongs
      · rfl

private theorem readAttributes_given (sole : frame.layout.Sole field)
    (distinct : (attributes.map (·.1)).Nodup) {type : ScalarType}
    (typeEq : field.declared.scalarType? = some type)
    (runs : context.readAttributes frame tag atRoot values attributes session = .ok (values', session'))
    {pair : String × String} (belongs : pair ∈ attributesOf frame.layout atRoot field attributes) :
    ∃ value, coerce context.strict field.declared type pair.2 frame.location = .ok value ∧
      values'.get? field.name = some value := by
  induction attributes generalizing values session with
  | nil => cases belongs
  | cons first rest ih =>
      obtain ⟨between, middle, goesOn, here⟩ := readAttributes_cons_eq_ok runs
      obtain ⟨member, own, routeEq⟩ := mem_attributesOf_iff.1 belongs
      obtain ⟨new, restDistinct⟩ := List.nodup_cons.1 distinct
      rcases List.mem_cons.1 member with rfl | later
      · have restNone : attributesOf frame.layout atRoot field rest = [] := by
          refine List.eq_nil_iff_forall_not_mem.2 ?_
          intro other otherBelongs
          obtain ⟨otherMember, _, otherEq⟩ := mem_attributesOf_iff.1 otherBelongs
          have sameName : other.1 = pair.1 :=
            (tag_eq_of_attributeField? otherEq).symm.trans (tag_eq_of_attributeField? routeEq)
          exact new (List.mem_map.2 ⟨other, otherMember, sameName⟩)
        rw [readAttributes_same sole restNone goesOn]
        rcases here with ⟨other, otherType, value, _, otherEq, otherTypeEq, coerceEq, rfl⟩ | ⟨_, none⟩
        · rw [routeEq] at otherEq
          cases otherEq
          rw [typeEq] at otherTypeEq
          cases otherTypeEq
          exact ⟨value, coerceEq, OrderedMap.get?_set_self _ _ _⟩
        · exact absurd typeEq (none field type own routeEq)
      · exact ih restDistinct goesOn (mem_attributesOf_iff.2 ⟨later, own, routeEq⟩)

end StartTag

/-! ### Entities -/

/-- What a field of an entity holds at its end tag, and where it is from: from its attribute or, if it
is the content field, from all the content, or from the children that belong to it.  If there is none
of these, it is the default. -/
structure HeldFrom (context : Context) (layout : Layout) (atRoot : Bool) (start : Start)
    (field : TaggedField) (value : Option Value) : Prop where
  fromAttribute : layout.contentField? ≠ some field →
    ∀ pair ∈ attributesOf layout atRoot field start.tag.attributes,
      ∃ type read, field.declared.scalarType? = some type ∧
        coerce context.strict field.declared type pair.2 (context.locate start.tag.position) =
          .ok read ∧
        value = some read
  fromContent : layout.contentField? = some field →
    ∃ type read, field.declared.scalarType? = some type ∧
      context.scalar field.declared type start.tag start.inside = .ok read ∧ value = some read
  fromChildren : childrenOf layout field start.inside ≠ [] →
    ∃ read, ValueFrom context field (childrenOf layout field start.inside) read ∧ value = some read
  fromDefault : layout.contentField? ≠ some field →
    attributesOf layout atRoot field start.tag.attributes = [] →
      childrenOf layout field start.inside = [] →
        ∀ read, value = some read → IsDefault field.declared read

theorem routed_of_attribute {layout : Layout} (isAttribute : field.declared.isAttribute = true)
    (content : Content) : routed layout field content = [] := by
  refine List.filter_eq_nil_iff.2 ?_
  intro child _ routes
  have isElement : field ∈ layout.elementFields := List.mem_of_find?_eq_some (of_decide_eq_true routes)
  rw [(not_isAttribute_of_elementFields isElement).1] at isAttribute
  cases isAttribute

section Entities

variable {layout : Layout} {className : String} {tag : Tag} {inside : Content} {atRoot : Bool}
  {frame : Frame} {values values' : FieldValues} {entity : Entity}

theorem readContentField_eq_ok {other : TaggedField} {type : ScalarType}
    (typeEq : other.declared.scalarType? = some type)
    (runs : context.readContentField frame values other tag inside session = .ok (values', session')) :
    ∃ value, context.scalar other.declared type tag inside = .ok value ∧
      values' = values.set other.name value := by
  simp only [Context.readContentField, typeEq] at runs
  obtain ⟨value, scalarEq, goesOn⟩ := Read.lift_bind_eq_ok runs
  obtain ⟨_, _, _, ends⟩ := Read.bind_eq_ok goesOn
  cases ends
  exact ⟨value, scalarEq, rfl⟩

/-- What a field has at the end of the start tag: its attribute, or its default. -/
structure GivenFrom (context : Context) (frame : Frame) (tag : Tag) (atRoot : Bool)
    (field : TaggedField) (value : Option Value) : Prop where
  fromAttribute : ∀ pair ∈ attributesOf frame.layout atRoot field tag.attributes,
    ∃ type read, field.declared.scalarType? = some type ∧
      coerce context.strict field.declared type pair.2 (context.locate tag.position) = .ok read ∧
      value = some read
  fromDefault : attributesOf frame.layout atRoot field tag.attributes = [] →
    ∀ read, value = some read → IsDefault field.declared read

private theorem givenFrom_of_begins (placed : frame.layout.Placed) (sole : frame.layout.Sole field)
    (distinct : (tag.attributes.map (·.1)).Nodup)
    (begins : context.beginEntity className tag atRoot session = .ok ((frame, values), session')) :
    GivenFrom context frame tag atRoot field (values.get? field.name) := by
  obtain ⟨resolved, _, _, frameEq, _, defaults, defaultsEq, attributesEq⟩ := beginEntity_eq_ok begins
  have layoutEq : resolved.layout = frame.layout := by
    rw [frameEq]
  have locationEq : frame.location = context.locate tag.position := by
    rw [frameEq]
  rw [layoutEq] at defaultsEq
  constructor
  · intro pair belongs
    have isAttribute := attributeField?_mem (mem_attributesOf_iff.1 belongs).2.2
    obtain ⟨type, typeEq⟩ := placed.scalarType? isAttribute.1 (.inl isAttribute.2)
    obtain ⟨read, coerceEq, found⟩ := readAttributes_given sole distinct typeEq attributesEq belongs
    rw [locationEq] at coerceEq
    exact ⟨type, read, typeEq, coerceEq, found⟩
  · intro none
    rw [readAttributes_same sole none attributesEq]
    exact defaultValues_get? sole defaultsEq

theorem GivenFrom.eq_none {value : Option Value}
    (given : GivenFrom context frame tag atRoot field value)
    (noScalar : field.declared.scalarType? = none) : value = none := by
  have none : attributesOf frame.layout atRoot field tag.attributes = [] := by
    refine List.eq_nil_iff_forall_not_mem.2 ?_
    intro pair belongs
    obtain ⟨type, _, typeEq, _⟩ := given.fromAttribute pair belongs
    rw [noScalar] at typeEq
    cases typeEq
  cases value with
  | none => rfl
  | some read =>
      obtain ⟨_, type, _, _, typeEq, _⟩ := given.fromDefault none read rfl
      rw [noScalar] at typeEq
      cases typeEq

private theorem heldFrom_of_content {other : TaggedField} (placed : frame.layout.Placed)
    (sole : frame.layout.Sole field) (contentEq : frame.layout.contentField? = some other)
    (given : GivenFrom context frame tag atRoot field (values.get? field.name))
    (runs : context.readContentField frame values other tag inside session = .ok (values', session')) :
    HeldFrom context frame.layout atRoot ⟨className, tag, inside⟩ field (values'.get? field.name) := by
  obtain ⟨type, typeEq⟩ := placed.content_scalarType? contentEq
  obtain ⟨read, scalarEq, rfl⟩ := readContentField_eq_ok typeEq runs
  have noChildren : childrenOf frame.layout field inside = [] := by
    rw [childrenOf, contentEq, Option.isNone_some, if_neg Bool.false_ne_true]
  -- All the content is for one field, and the other fields keep what the start tag has given them.
  by_cases same : other = field
  · subst same
    refine ⟨fun notContent => absurd contentEq notContent, fun _ => ?_,
      fun children => absurd noChildren children, fun notContent => absurd contentEq notContent⟩
    exact ⟨type, read, typeEq, scalarEq, OrderedMap.get?_set_self _ _ _⟩
  · have otherName : other.name ≠ field.name := fun equal =>
      same (sole other (Schema.Layout.contentField?_mem_fields contentEq).1 equal)
    rw [OrderedMap.get?_set_of_ne _ _ otherName]
    refine ⟨fun _ => given.fromAttribute, fun isContent => ?_,
      fun children => absurd noChildren children, fun _ none _ => given.fromDefault none⟩
    rw [contentEq] at isContent
    exact absurd (Option.some.inj isContent) same

private theorem heldFrom_of_children (sole : frame.layout.Sole field)
    (contentEq : frame.layout.contentField? = none)
    (given : GivenFrom context frame tag atRoot field (values.get? field.name))
    (runs : context.childrenIn inside frame values session = .ok (values', session')) :
    HeldFrom context frame.layout atRoot ⟨className, tag, inside⟩ field (values'.get? field.name) := by
  have childrenEq : childrenOf frame.layout field inside = routed frame.layout field inside := by
    rw [childrenOf, contentEq, Option.isNone_none, if_pos rfl]
  have nothingYet : Gathered context field (values.get? field.name) [] (values.get? field.name) :=
    .inl ⟨rfl, rfl⟩
  have gathered := readChildren_gathered sole runs (fun _ => .inl rfl) given.eq_none nothingYet
  rw [List.nil_append, ← childrenEq] at gathered
  have kept (noChildren : childrenOf frame.layout field inside = []) :
      values'.get? field.name = values.get? field.name := by
    rcases gathered with ⟨_, valueEq⟩ | ⟨children, _⟩
    · exact valueEq
    · exact absurd noChildren children
  refine ⟨fun _ pair belongs => ?_, fun isContent => ?_, fun children => ?_,
    fun _ none noChildren => ?_⟩
  · have isAttribute := (attributeField?_mem (mem_attributesOf_iff.1 belongs).2.2).2
    rw [kept (childrenEq.trans (routed_of_attribute isAttribute inside))]
    exact given.fromAttribute pair belongs
  · rw [contentEq] at isContent
    cases isContent
  · rcases gathered with ⟨noChildren, _⟩ | ⟨_, read, valueEq, valueFrom⟩
    · exact absurd noChildren children
    · exact ⟨read, valueFrom, valueEq⟩
  · rw [kept noChildren]
    exact given.fromDefault none

/-- Each field with a name of its own holds at the end tag what has been read for it. -/
private theorem readEntity_heldFrom (layoutEq : context.schema.layout? className = some layout)
    (placed : layout.Placed) (sole : layout.Sole field)
    (distinct : (tag.attributes.map (·.1)).Nodup)
    (runs : context.readEntity className tag inside atRoot session = .ok (entity, session')) :
    HeldFrom context layout atRoot ⟨className, tag, inside⟩ field (entity.get? field.name) := by
  obtain ⟨frame, values, begun, values', begins, goesOn, rfl⟩ := entity_eq_ok runs
  obtain rfl : frame.layout = layout :=
    Option.some.inj ((beginEntity_layout? begins).symm.trans layoutEq)
  have given := givenFrom_of_begins placed sole distinct begins
  cases contentEq : frame.layout.contentField? with
  | some other =>
      simp only [contentEq] at goesOn
      exact heldFrom_of_content placed sole contentEq given goesOn
  | none =>
      simp only [contentEq] at goesOn
      exact heldFrom_of_children sole contentEq given goesOn

/-! ### The entities of a graph -/

theorem nodup_attributes {extended : Bool} {document : String}
    (documentEq : Document.parse extended document = .rooted tag inside) {schema : Schema}
    {start : Start} (member : start ∈ Start.all schema ⟨className, tag, inside⟩) :
    (start.tag.attributes.map (·.1)).Nodup := by
  have isTag := (Start.all_sublist schema ⟨className, tag, inside⟩).subset (List.mem_map_of_mem member)
  obtain ⟨token, tokenMember, tagEq⟩ :=
    List.mem_filterMap.1 ((Document.tags_sublist documentEq).subset isTag)
  have tidy := Markup.tidy_tokenize extended document token tokenMember
  unfold Token.tag? at tagEq
  split at tagEq
  · rename_i kindEq
    rw [kindEq] at tidy
    rw [← Option.some.inj tagEq]
    exact tidy
  · cases tagEq

theorem placed_of_layout? {declarations : Schema.Declarations}
    (built : declarations.build = .ok context.schema)
    (layoutEq : context.schema.layout? className = some layout) : layout.Placed := by
  obtain ⟨resolved, found, rfl⟩ := Option.map_eq_some_iff.1 layoutEq
  exact Schema.placed_of_build built resolved (List.mem_of_find?_eq_some found)

theorem IsEntityAt.placed {declarations : Schema.Declarations} {starts : List Start} {start : Start}
    (built : declarations.build = .ok context.schema)
    (isAt : IsEntityAt context starts entity start layout) : layout.Placed :=
  placed_of_layout? built isAt.layout_eq

theorem IsEntityAt.heldFrom {declarations : Schema.Declarations} {extended : Bool} {document : String}
    {start : Start} (built : declarations.build = .ok context.schema)
    (documentEq : Document.parse extended document = .rooted tag inside)
    (isAt : IsEntityAt context (Start.all context.schema ⟨className, tag, inside⟩) entity start layout)
    (sole : layout.Sole field) :
    HeldFrom context layout (entity.id.value == 0) start field (entity.get? field.name) := by
  obtain ⟨before, after, _, readEq⟩ := isAt.read
  exact readEntity_heldFrom isAt.layout_eq (isAt.placed built) sole
    (nodup_attributes documentEq (List.mem_of_getElem? isAt.start_eq)) readEq

end Entities

end Trellis.Reading
