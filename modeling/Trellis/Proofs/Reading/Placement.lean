import Trellis.Proofs.Calendar.Moments
import Trellis.Proofs.Reading.Records

/-!
The places of a graph.

A map of places has one for each entity, one for each field that has been read and does not hold
entities, and one for each item of a list or set of scalars and for each entry of a map.  They are
those of the tags that these have been read from, and there are no others.
-/

namespace Trellis.Reading

open Trellis.Graph (Entity Value)
open Markup (Content Tag)
open Schema (Collection FieldKind ItemType Layout MapEncoding ScalarType TaggedField)

/-! ### Statements -/

/-- The field of the entity at the start tag has been read, and the tag says where: an attribute and
the content field at the start tag, any other field at the first child that belongs to it.  The
places of entities in a field are not its own. -/
inductive ReadAt (layout : Layout) (atRoot : Bool) (start : Start) (field : TaggedField) : Tag → Prop
  | byAttribute {name raw : String} {type : ScalarType} (given : (name, raw) ∈ start.tag.attributes)
      (own : isOwnAttribute atRoot name = true) (found : layout.attributeField? name = some field)
      (scalar : field.declared.scalarType? = some type) : ReadAt layout atRoot start field start.tag
  | byContent {type : ScalarType} (found : layout.contentField? = some field)
      (scalar : field.declared.scalarType? = some type) : ReadAt layout atRoot start field start.tag
  | byChild {child : Tag × Content} {rest : List (Tag × Content)}
      (external : field.declared.target? = none)
      (first : childrenOf layout field start.inside = child :: rest) :
      ReadAt layout atRoot start field child.1

/-- The entries that a value of the kind has: a list by position, a set by the texts of its members
or, where they have none, by position, and a map by key. -/
inductive HasEntry : FieldKind → Value → EntryKey → Prop
  | index {type : ScalarType} {wrapped : Bool} {items : List Value} {position : Nat}
      (within : position < items.length) :
      HasEntry (.many .list (.scalar type) wrapped) (.collection .list items) (.index position)
  | member {type : ScalarType} {wrapped : Bool} {items : List Value} {item : Value} {text : String}
      (member : item ∈ items) (textEq : item.scalarText? = some text) :
      HasEntry (.many .set (.scalar type) wrapped) (.collection .set items) (.member text)
  | position {type : ScalarType} {wrapped : Bool} {items : List Value} {item : Value} {position : Nat}
      (found : items[position]? = some item) (noText : item.scalarText? = none) :
      HasEntry (.many .set (.scalar type) wrapped) (.collection .set items) (.index position)
  | key {encoding : MapEncoding} {texts : List (String × String)} {key : String}
      (bound : key ∈ OrderedMap.keys texts) : HasEntry (.map encoding) (.map texts) (.key key)

def LastOfKey (collection : Collection) (kept : List (Tag × Value)) (position : Nat)
    (item : Tag × Value) : Prop :=
  ∀ (later : Nat) (other : Tag × Value), kept[later]? = some other → position < later →
    itemKey collection other.2 later ≠ itemKey collection item.2 position

/-- The places of an entity, of its fields and of their entries are those of the tags that they are
read from, and nothing else has a place.  The items of a list or set of scalars are those of the
elements that it keeps; of items with one key, which can only be numbers in a set, the last counts.
Of entries of a map with one key the last counts as well. -/
structure PlacesExact (context : Context) (layout : Layout) (start : Start) (entity : Entity)
    (map : LocationMap) : Prop where
  entity_place : map.entityPlace? entity.id = some (context.locate start.tag.position)
  field_place : ∀ field ∈ layout.fields, ∀ location,
    map.fieldPlace? entity.id field.name = some location ↔
      ∃ tag, ReadAt layout (entity.id.value == 0) start field tag ∧
        location = context.locate tag.position
  entry_keys : ∀ field ∈ layout.fields, ∀ key, (map.entryPlace? entity.id field.name key).isSome ↔
    ∃ value, entity.get? field.name = some value ∧ HasEntry field.declared.kind value key
  item_place : ∀ field ∈ layout.fields, ∀ collection type wrapped,
    field.declared.kind = .many collection (.scalar type) wrapped →
      ∃ items,
        ItemsRead context field type
          (itemElements field wrapped (childrenOf layout field start.inside)) items ∧
        (∀ value, entity.get? field.name = some value →
          value = .collection collection ((keptItems collection items).map (·.2))) ∧
        (∀ (position : Nat) item, (keptItems collection items)[position]? = some item →
          LastOfKey collection (keptItems collection items) position item →
            map.entryPlace? entity.id field.name (itemKey collection item.2 position) =
              some (context.locate item.1.position)) ∧
        (collection = .list ∨ (∀ precision, type ≠ .floating precision) →
          ∀ (position : Nat) item, (keptItems collection items)[position]? = some item →
            LastOfKey collection (keptItems collection items) position item)
  entry_place : ∀ field ∈ layout.fields, ∀ encoding, field.declared.kind = .map encoding →
    ∀ key, map.entryPlace? entity.id field.name key =
      (context.mapEntries field encoding
        ((childrenOf layout field start.inside).flatMap (·.2.elements))).reverse.lookup key
  foreign : ∀ name, (∀ field ∈ layout.fields, field.name ≠ name) →
    map.fieldPlace? entity.id name = none ∧ ∀ key, map.entryPlace? entity.id name key = none

/-! ### Keys -/

private theorem isSome_lookup_reverse {entries : List (EntryKey × Location)} {key : EntryKey} :
    (entries.reverse.lookup key).isSome ↔ key ∈ entries.map (·.1) := by
  rw [List.lookup_isSome_iff, List.mem_map]
  simp only [List.mem_reverse, beq_iff_eq]
  exact exists_congr fun entry => and_congr_right fun _ => eq_comm

private theorem itemKey_list (value : Value) (position : Nat) :
    itemKey .list value position = .index position :=
  rfl

theorem itemKey_set_of_text {value : Value} {text : String} (textEq : value.scalarText? = some text)
    (position : Nat) : itemKey .set value position = .member text := by
  simp only [itemKey, textEq]

private theorem itemKey_set_of_none {value : Value} (noText : value.scalarText? = none)
    (position : Nat) :
    itemKey .set value position = .index position := by
  simp only [itemKey, noText]

private theorem mem_itemEntries_iff {context : Context} {collection : Collection}
    {kept : List (Tag × Value)}
    {key : EntryKey} :
    key ∈ (context.itemEntries collection kept).map (·.1) ↔
      ∃ (position : Nat) (item : Tag × Value), kept[position]? = some item ∧
        itemKey collection item.2 position = key := by
  simp only [Context.itemEntries, List.map_map, List.mem_map, Function.comp_apply]
  constructor
  · rintro ⟨entry, member, keyEq⟩
    exact ⟨entry.2, entry.1, List.mem_zipIdx_iff_getElem?.1 member, keyEq⟩
  · rintro ⟨position, item, found, keyEq⟩
    exact ⟨(item, position), List.mem_zipIdx_iff_getElem?.2 found, keyEq⟩

private theorem hasEntry_items_iff {context : Context} {collection : Collection} {type : ScalarType}
    {wrapped : Bool} {kept : List (Tag × Value)} {key : EntryKey} :
    key ∈ (context.itemEntries collection kept).map (·.1) ↔
      HasEntry (.many collection (.scalar type) wrapped) (.collection collection (kept.map (·.2)))
        key := by
  rw [mem_itemEntries_iff]
  constructor
  · rintro ⟨position, item, found, rfl⟩
    have valueFound : (kept.map (·.2))[position]? = some item.2 := by
      rw [List.getElem?_map, found]
      rfl
    cases collection with
    | list =>
        obtain ⟨within, _⟩ := List.getElem?_eq_some_iff.1 valueFound
        rw [itemKey_list]
        exact .index within
    | set =>
        cases textEq : item.2.scalarText? with
        | none =>
            rw [itemKey_set_of_none textEq]
            exact .position valueFound textEq
        | some text =>
            rw [itemKey_set_of_text textEq]
            exact .member (List.mem_of_getElem? valueFound) textEq
  · intro has
    cases has with
    | @index _ _ _ position within =>
        rw [List.length_map] at within
        exact ⟨position, kept[position], List.getElem?_eq_getElem within, itemKey_list _ _⟩
    | member member textEq =>
        obtain ⟨item, itemMember, rfl⟩ := List.mem_map.1 member
        obtain ⟨position, found⟩ := List.getElem?_of_mem itemMember
        exact ⟨position, item, found, itemKey_set_of_text textEq _⟩
    | position found noText =>
        rw [List.getElem?_map] at found
        obtain ⟨item, itemFound, rfl⟩ := Option.map_eq_some_iff.1 found
        exact ⟨_, item, itemFound, itemKey_set_of_none noText _⟩

/-- An item that no later one shares its key with is the one that counts. -/
theorem lookup_itemEntries {context : Context} {collection : Collection} {kept : List (Tag × Value)}
    {position : Nat} {item : Tag × Value} (found : kept[position]? = some item)
    (last : LastOfKey collection kept position item) :
    (context.itemEntries collection kept).reverse.lookup (itemKey collection item.2 position) =
      some (context.locate item.1.position) := by
  -- From the end, where the lookup begins: a last item that is not the one at hand has another key.
  induction kept using List.reverseRecOn with
  | nil => cases found
  | append_singleton front final ih =>
      rw [Context.itemEntries_concat, List.reverse_append, List.reverse_singleton, List.singleton_append,
        LocationMap.lookup_cons_eq_ite]
      rcases Nat.lt_trichotomy position front.length with less | same | greater
      · have different := last front.length final (List.getElem?_concat_length) less
        rw [if_neg (by rw [beq_iff_eq]; exact fun equal => different equal.symm)]
        rw [List.getElem?_append_left less] at found
        refine ih found ?_
        intro later other otherFound greater
        obtain ⟨within, _⟩ := List.getElem?_eq_some_iff.1 otherFound
        refine last later other ?_ greater
        rw [List.getElem?_append_left within, otherFound]
      · rw [same, List.getElem?_concat_length] at found
        cases found
        rw [same, if_pos (beq_self_eq_true _)]
      · have within : position < (front ++ [final]).length := (List.getElem?_eq_some_iff.1 found).1
        rw [List.length_append, List.length_singleton] at within
        omega

/-! ### One field -/

section Field

variable {context : Context} {id : EntityId} {field : TaggedField} {children : List (Tag × Content)}
  {place : Option Location} {value : Option Value} {session : Session}

private theorem not_hasEntry_nil {kind : FieldKind} {collection : Collection} {key : EntryKey} :
    ¬ HasEntry kind (.collection collection []) key := by
  intro entry
  cases entry with
  | index within => cases within
  | member member _ => cases member
  | position found _ => cases found

theorem ItemsFound.isSome_iff {collection : Collection} {type : ScalarType} {wrapped : Bool}
    (found : ItemsFound context id field collection type wrapped children value session)
    (key : EntryKey) :
    (session.locations.entryPlace? id field.name key).isSome ↔
      ∃ bound, value = some bound ∧
        HasEntry (.many collection (.scalar type) wrapped) bound key := by
  obtain ⟨items, read, has, valueEq⟩ := found
  rw [has key, isSome_lookup_reverse, @hasEntry_items_iff _ _ type wrapped]
  by_cases unread : children = []
  · have noItems : items = [] := by
      rw [unread] at read
      cases wrapped <;> cases read <;> rfl
    rw [valueEq, if_pos unread, noItems]
    constructor
    · exact fun entry => absurd entry not_hasEntry_nil
    · rintro ⟨_, impossible, _⟩
      cases impossible
  · simp only [valueEq, if_neg unread, Option.some.injEq, exists_eq_left']

theorem MapFound.isSome_iff {encoding : MapEncoding}
    (found : MapFound context id field encoding children value session) (key : EntryKey) :
    (session.locations.entryPlace? id field.name key).isSome ↔
      ∃ bound, value = some bound ∧ HasEntry (.map encoding) bound key := by
  rw [found.entries key, isSome_lookup_reverse]
  by_cases unread : children = []
  · rw [found.unread unread, unread]
    constructor
    · intro impossible
      cases impossible
    · rintro ⟨_, impossible, _⟩
      cases impossible
  · obtain ⟨texts, valueEq, keys⟩ := found.read unread
    simp only [valueEq, Option.some.injEq, exists_eq_left']
    constructor
    · intro member
      obtain ⟨entry, entryMember, rfl⟩ := List.mem_map.1 member
      obtain ⟨site, _, rfl⟩ := List.mem_map.1 entryMember
      exact .key ((keys site.1).2 member)
    · intro entry
      cases entry with
      | key bound => exact (keys _).1 bound

theorem HasEntries.isSome_iff_of_not {kind : FieldKind} (has : HasEntries id field [] session)
    {key : EntryKey} (noEntry : ∀ bound, ¬ HasEntry kind bound key) :
    (session.locations.entryPlace? id field.name key).isSome ↔
      ∃ bound, value = some bound ∧ HasEntry kind bound key := by
  rw [has key]
  constructor
  · intro impossible
    cases impossible
  · rintro ⟨bound, _, entry⟩
    exact absurd entry (noEntry bound)

private theorem entryPlace?_isSome_iff (found : Found context id field place children value session)
    (key : EntryKey) :
    (session.locations.entryPlace? id field.name key).isSome ↔
      ∃ bound, value = some bound ∧ HasEntry field.declared.kind bound key := by
  have entries := found.entries
  unfold EntriesFound at entries
  cases kindEq : field.declared.kind with
  | scalar type =>
      simp only [kindEq] at entries
      exact entries.isSome_iff_of_not nofun
  | one target =>
      simp only [kindEq] at entries
      exact entries.isSome_iff_of_not nofun
  | many collection type wrapped =>
      cases type with
      | entity target =>
          simp only [kindEq] at entries
          exact entries.isSome_iff_of_not nofun
      | scalar type =>
          simp only [kindEq] at entries
          exact entries.isSome_iff key
  | map encoding =>
      simp only [kindEq] at entries
      exact entries.isSome_iff key

private theorem isAttribute_of_givenBy {layout : Layout} {atRoot : Bool}
    {attributes : List (String × String)}
    (given : givenBy layout atRoot field attributes = true) : field.declared.isAttribute = true := by
  obtain ⟨_, some⟩ := Bool.and_eq_true_iff.1 given
  obtain ⟨pair, _, own⟩ := List.any_eq_true.1 some
  obtain ⟨_, found⟩ := Bool.and_eq_true_iff.1 own
  exact (attributeField?_mem (of_decide_eq_true found)).2

private theorem childrenOf_of_givenAtStart {layout : Layout} {atRoot : Bool} {tag : Tag}
    {inside : Content}
    (given : givenAtStart layout atRoot field tag = true) : childrenOf layout field inside = [] := by
  unfold childrenOf
  split
  · rename_i noContent
    rcases Bool.or_eq_true_iff.1 given with isAttribute | isContent
    · have noAttribute := isAttribute_of_givenBy isAttribute
      refine List.filter_eq_nil_iff.2 ?_
      intro child _ routes
      have isElement : field ∈ layout.elementFields :=
        List.mem_of_find?_eq_some (of_decide_eq_true routes)
      rw [(not_isAttribute_of_elementFields isElement).1] at noAttribute
      cases noAttribute
    · obtain ⟨_, contentEq⟩ := Bool.and_eq_true_iff.1 isContent
      rw [of_decide_eq_true contentEq] at noContent
      cases noContent
  · rfl

private theorem givenAtStart_iff {layout : Layout} {atRoot : Bool} {start : Start} :
    givenAtStart layout atRoot field start.tag = true ↔
      (∃ type, field.declared.scalarType? = some type) ∧
        ((∃ pair ∈ start.tag.attributes, isOwnAttribute atRoot pair.1 = true ∧
          layout.attributeField? pair.1 = some field) ∨ layout.contentField? = some field) := by
  simp only [givenAtStart, givenBy, Bool.or_eq_true, Bool.and_eq_true, List.any_eq_true,
    Option.isSome_iff_exists, decide_eq_true_eq, and_or_left]

private theorem fieldPlace?_eq_some_iff {layout : Layout} {atRoot : Bool} {start : Start}
    (found : Found context id field
      (if givenAtStart layout atRoot field start.tag then some (context.locate start.tag.position)
        else none)
      (childrenOf layout field start.inside) value session) (location : Location) :
    session.locations.fieldPlace? id field.name = some location ↔
      ∃ tag, ReadAt layout atRoot start field tag ∧ location = context.locate tag.position := by
  rw [found.place]
  cases given : givenAtStart layout atRoot field start.tag with
  | true =>
      simp only [if_true, Option.some_or, Option.some.injEq]
      constructor
      · rintro rfl
        obtain ⟨⟨type, scalar⟩, isAttribute | isContent⟩ := givenAtStart_iff.1 given
        · obtain ⟨⟨name, raw⟩, member, own, routes⟩ := isAttribute
          exact ⟨start.tag, .byAttribute member own routes scalar, rfl⟩
        · exact ⟨start.tag, .byContent isContent scalar, rfl⟩
      · rintro ⟨tag, readAt, rfl⟩
        cases readAt with
        | byAttribute => rfl
        | byContent => rfl
        | byChild _ first =>
            rw [childrenOf_of_givenAtStart given] at first
            cases first
  | false =>
      have notGiven : ¬ _ := fun isGiven => Bool.eq_false_iff.1 given (givenAtStart_iff.2 isGiven)
      simp only [Bool.false_eq_true, if_false, Option.none_or]
      constructor
      · intro placeEq
        split at placeEq
        · rename_i external
          obtain ⟨child, first, rfl⟩ := Option.map_eq_some_iff.1 placeEq
          obtain ⟨rest, childrenEq⟩ := List.head?_eq_some_iff.1 first
          exact ⟨child.1, .byChild external childrenEq, rfl⟩
        · cases placeEq
      · rintro ⟨tag, readAt, rfl⟩
        cases readAt with
        | byAttribute member own routes scalar =>
            exact absurd ⟨⟨_, scalar⟩, .inl ⟨_, member, own, routes⟩⟩ notGiven
        | byContent content scalar => exact absurd ⟨⟨_, scalar⟩, .inr content⟩ notGiven
        | byChild external first =>
            rw [if_pos external, first]
            rfl

end Field

/-! ### Members of a set -/

theorem mem_keptItems {collection : Collection} {items : List (Tag × Value)} :
    keptItems collection items ⊆ items := by
  induction items using List.reverseRecOn with
  | nil => exact List.Subset.refl _
  | append_singleton items item ih =>
      rw [keptItems_concat, keepNext]
      split
      · exact fun other member => List.mem_append_left _ (ih member)
      · intro other member
        exact List.mem_append.2 ((List.mem_append.1 member).imp_left fun known => ih known)

theorem keptItems_set_pairwise (items : List (Tag × Value)) :
    (keptItems .set items).Pairwise fun earlier later => earlier.2.equal later.2 = false := by
  induction items using List.reverseRecOn with
  | nil => exact List.Pairwise.nil
  | append_singleton items item ih =>
      rw [keptItems_concat, keepNext]
      split
      · exact ih
      · rename_i new
        refine List.pairwise_append.2 ⟨ih, List.pairwise_singleton _ _, ?_⟩
        intro earlier member later laterMember
        rw [List.mem_singleton.1 laterMember, ← Bool.not_eq_true]
        exact fun equal => new ⟨rfl, List.any_eq_true.2 ⟨earlier, member, equal⟩⟩

private theorem scalar_date {context : Context} {field : Schema.Field} {tag : Tag} {inside : Content}
    {value : Value} (read : context.scalar field .date tag inside = .ok value) :
    ∃ moment, value = .date moment ∧ moment.time.Regular := by
  unfold Context.scalar at read
  obtain ⟨text, _, coerced⟩ := eq_ok_of_bind read
  unfold coerce at coerced
  simp only [scalarOf?, fallback?, ite_self, Option.or_none] at coerced
  split at coerced
  · rename_i found momentEq
    cases coerced
    obtain ⟨moment, isMoment, rfl⟩ := Option.map_eq_some_iff.1 momentEq
    exact ⟨moment, rfl, Calendar.readMoment?_regular isMoment⟩
  · cases coerced

/-- Where texts tell all values apart but those that are no numbers, members with one text are
equal. -/
private theorem equal_of_scalarText? {context : Context} {field : Schema.Field} {type : ScalarType}
    (notFloating : ∀ precision, type ≠ .floating precision) {tag tag' : Tag} {inside inside' : Content}
    {value value' : Value} (read : context.scalar field type tag inside = .ok value)
    (read' : context.scalar field type tag' inside' = .ok value') {text : String}
    (textEq : value.scalarText? = some text) (textEq' : value'.scalarText? = some text) :
    value.equal value' = true := by
  have typed := scalar_hasType read
  have typed' := scalar_hasType read'
  cases type with
  | boolean =>
      cases value <;> first | exact typed.elim | skip
      cases value' <;> first | exact typed'.elim | skip
      rename_i truth truth'
      have same := Option.some.inj (textEq.trans textEq'.symm)
      cases truth <;> cases truth' <;> first | rfl | exact absurd same (by decide)
  | character =>
      cases value <;> first | exact typed.elim | skip
      cases value' <;> first | exact typed'.elim | skip
      have same := Option.some.inj (textEq.trans textEq'.symm)
      simpa [Value.equal] using congrArg String.toList same
  | integer width =>
      cases value <;> first | exact typed.elim | skip
      cases value' <;> first | exact typed'.elim | skip
      rename_i number number'
      have same : number.text = number'.text := Option.some.inj (textEq.trans textEq'.symm)
      have back := number.read?_text
      have widths : number.width = number'.width := typed.trans typed'.symm
      rw [same, widths, number'.read?_text] at back
      rw [← Option.some.inj back]
      exact beq_self_eq_true _
  | floating precision => exact absurd rfl (notFloating precision)
  | text =>
      cases value <;> first | exact typed.elim | skip
      cases value' <;> first | exact typed'.elim | skip
      exact beq_iff_eq.2 (Option.some.inj (textEq.trans textEq'.symm))
  | date =>
      obtain ⟨moment, rfl, regular⟩ := scalar_date read
      obtain ⟨moment', rfl, regular'⟩ := scalar_date read'
      have same : moment.text = moment'.text := Option.some.inj (textEq.trans textEq'.symm)
      exact beq_iff_eq.2 (Calendar.DateTime.text_injective regular regular' same)
  | tree =>
      cases value <;> first | exact typed.elim | skip
      cases textEq

theorem ItemsRead.exists_read {context : Context} {field : TaggedField} {type : ScalarType}
    {elements : List (Tag × Content)} {items : List (Tag × Value)}
    (read : ItemsRead context field type elements items) {item : Tag × Value} (member : item ∈ items) :
    ∃ tag inside, context.scalar field.declared type tag inside = .ok item.2 := by
  induction read with
  | nil => cases member
  | @cons element other _ _ here _ ih =>
      rcases List.mem_cons.1 member with rfl | later
      · exact ⟨element.1, element.2, here.2⟩
      · exact ih later

/-- No two items of a list have one key, and no two members of a set but such as are no numbers. -/
theorem lastOfKey {context : Context} {field : TaggedField} {collection : Collection}
    {type : ScalarType} {elements : List (Tag × Content)} {items : List (Tag × Value)}
    (read : ItemsRead context field type elements items)
    (told : collection = .list ∨ ∀ precision, type ≠ .floating precision) {position : Nat}
    {item : Tag × Value} (found : (keptItems collection items)[position]? = some item) :
    LastOfKey collection (keptItems collection items) position item := by
  intro later other otherFound less sameKey
  cases collection with
  | list =>
      rw [itemKey_list, itemKey_list, EntryKey.index.injEq] at sameKey
      omega
  | set =>
      have notFloating := told.resolve_left nofun
      cases textEq : item.2.scalarText? with
      | none =>
          rw [itemKey_set_of_none textEq] at sameKey
          cases textEq' : other.2.scalarText? with
          | none =>
              rw [itemKey_set_of_none textEq', EntryKey.index.injEq] at sameKey
              omega
          | some text =>
              rw [itemKey_set_of_text textEq'] at sameKey
              cases sameKey
      | some text =>
          rw [itemKey_set_of_text textEq] at sameKey
          cases textEq' : other.2.scalarText? with
          | none =>
              rw [itemKey_set_of_none textEq'] at sameKey
              cases sameKey
          | some text' =>
              rw [itemKey_set_of_text textEq', EntryKey.member.injEq] at sameKey
              obtain ⟨_, _, read₁⟩ := read.exists_read (mem_keptItems (List.mem_of_getElem? found))
              obtain ⟨_, _, read₂⟩ := read.exists_read (mem_keptItems (List.mem_of_getElem? otherFound))
              rw [sameKey] at textEq'
              have equal := equal_of_scalarText? notFloating read₁ read₂ textEq textEq'
              obtain ⟨within, itemEq⟩ := List.getElem?_eq_some_iff.1 found
              obtain ⟨within', otherEq⟩ := List.getElem?_eq_some_iff.1 otherFound
              have differ := List.pairwise_iff_getElem.1 (keptItems_set_pairwise items) position later
                within within' less
              rw [itemEq, otherEq, equal] at differ
              cases differ

/-! ### Whole reads -/

private theorem placesExact_of_found {context : Context} {layout : Layout} {start : Start}
    {entity : Entity}
    {session : Session}
    (placeEq : session.locations.entityPlace? entity.id = some (context.locate start.tag.position))
    (found : ∀ field ∈ layout.fields, Found context entity.id field
      (if givenAtStart layout (entity.id.value == 0) field start.tag then
        some (context.locate start.tag.position) else none)
      (childrenOf layout field start.inside) (entity.get? field.name) session)
    (foreign : ∀ name, (∀ field ∈ layout.fields, field.name ≠ name) →
      NoRecords entity.id name session) :
    PlacesExact context layout start entity session.locations where
  entity_place := placeEq
  field_place field member := fieldPlace?_eq_some_iff (found field member)
  entry_keys field member := entryPlace?_isSome_iff (found field member)
  item_place := by
    intro field member collection type wrapped kindEq
    obtain ⟨items, read, has, valueEq⟩ := (entriesFound_items_iff kindEq).1 (found field member).entries
    refine ⟨items, read, ?_, ?_, ?_⟩
    · intro value isValue
      rw [valueEq] at isValue
      split at isValue
      · cases isValue
      · exact (Option.some.inj isValue).symm
    · intro position item itemFound last
      rw [has, lookup_itemEntries itemFound last]
    · exact fun told position item itemFound => lastOfKey read told itemFound
  entry_place := by
    intro field member encoding kindEq
    exact ((entriesFound_map_iff kindEq).1 (found field member).entries).entries
  foreign name notDeclared := ⟨(foreign name notDeclared).place, (foreign name notDeclared).entries⟩

/-- The map of a read has exactly the places of the entities of the graph, of their fields and of the
entries in these. -/
theorem places_exact (reader : Reader) (className document : String) (source : Option Source)
    (distinct : DistinctFields reader.schema) (tracks : reader.schema.tracksLocations = true)
    {graph : ObjectGraph} (reads : reader.readAs className document source = .ok graph) :
    let context : Context :=
      ⟨reader.schema, reader.options.strict, if reader.schema.tracksSources then source else none⟩
    ∃ tag inside map, Markup.Document.parse reader.options.extended document = .rooted tag inside ∧
      graph.locations = some map ∧
      ∀ entity, graph.root.Reaches entity → ∃ start layout,
        (Start.all reader.schema ⟨className, tag, inside⟩)[entity.id.value]? = some start ∧
        start.IsReadAs context entity ∧ entity.className = start.className ∧
        reader.schema.layout? start.className = some layout ∧
        PlacesExact context layout start entity map := by
  intro context
  obtain ⟨tag, inside, session, documentEq, entityEq, locationsEq⟩ := readDocument_eq_ok reads
  refine ⟨tag, inside, session.locations, documentEq, ?_, ?_⟩
  · rw [locationsEq]
    exact if_pos tracks
  · intro entity reaches
    have numbered := root_numbered entityEq
    obtain ⟨start, isStart, before, after, nextEq, fresh, readEq, _, same⟩ :=
      (numbered.settled entity (Trellis.Graph.Entity.mem_all_iff.2 reaches)).read
    have distinctHere : DistinctFields context.schema := distinct
    obtain ⟨layout, layoutEq, classEq, found, foreign⟩ := readEntity_found distinctHere readEq fresh
    have placeEq := (countsStarts_readEntity entityEq).places _ _ isStart
    refine ⟨start, layout, isStart, ⟨before, after, nextEq, readEq⟩, classEq, layoutEq, ?_⟩
    refine placesExact_of_found placeEq ?_ ?_
    · exact fun field member => (found field member).same (same field.name)
    · exact fun name notDeclared => (same name).noRecords (foreign name notDeclared)

def garden : Schema.Declarations where
  classes := [
    { name := "Garden"
      fields := [
        { name := "name", kind := .scalar .text, isAttribute := true },
        { name := "size", kind := .scalar (.integer .int), default := some "1" },
        { name := "notes", kind := .many .list (.scalar .text) true },
        { name := "colors", kind := .many .set (.scalar .text) false },
        { name := "hours", kind := .map .inline },
        { name := "gate", kind := .one "Gate" }] },
    { name := "Gate", fields := [{ name := "label", kind := .scalar .text, isContent := true }] },
    { name := "Place" }]
  roots := ["Garden"]
  locationTracker := some "Place"

/-- A garden is read with a color that is given twice, and its size has no place. -/
theorem places_exact_of_garden :
    let document := "<garden name='G'><notes><note>a</note><note>b</note></notes><color>red</color>" ++
      "<gate>L</gate><color>red</color><hours><mon>9</mon></hours></garden>"
    ∃ schema, garden.build = .ok schema ∧ DistinctFields schema ∧ schema.tracksLocations = true ∧
      ∃ graph map, (Reader.mk schema {}).readAs "Garden" document none = .ok graph ∧
        graph.locations = some map ∧
        (∀ entity, graph.root.Reaches entity → ∃ start layout, entity.className = start.className ∧
          schema.layout? start.className = some layout ∧
          PlacesExact ⟨schema, true, none⟩ layout start entity map) ∧
        map.fieldPlace? ⟨0⟩ "name" = some ⟨⟨1, 1⟩, none⟩ ∧ map.fieldPlace? ⟨0⟩ "size" = none ∧
        map.entryPlace? ⟨0⟩ "notes" (.index 1) = some ⟨⟨1, 39⟩, none⟩ ∧
        map.fieldPlace? ⟨0⟩ "colors" = some ⟨⟨1, 61⟩, none⟩ ∧
        map.entryPlace? ⟨0⟩ "colors" (.member "red") = some ⟨⟨1, 61⟩, none⟩ ∧
        map.fieldPlace? ⟨0⟩ "gate" = none ∧ map.fieldPlace? ⟨1⟩ "label" = some ⟨⟨1, 79⟩, none⟩ ∧
        map.entryPlace? ⟨0⟩ "hours" (.key "mon") = some ⟨⟨1, 118⟩, none⟩ := by
  intro document
  have passes : garden.build.toOption.any (fun schema =>
      decide (DistinctFields schema) && (schema.tracksLocations &&
        (((Reader.mk schema {}).readAs "Garden" document none).toOption.bind (·.locations)).any
          fun map =>
            map.fieldPlace? ⟨0⟩ "name" = some ⟨⟨1, 1⟩, none⟩ ∧ map.fieldPlace? ⟨0⟩ "size" = none ∧
            map.entryPlace? ⟨0⟩ "notes" (.index 1) = some ⟨⟨1, 39⟩, none⟩ ∧
            map.fieldPlace? ⟨0⟩ "colors" = some ⟨⟨1, 61⟩, none⟩ ∧
            map.entryPlace? ⟨0⟩ "colors" (.member "red") = some ⟨⟨1, 61⟩, none⟩ ∧
            map.fieldPlace? ⟨0⟩ "gate" = none ∧
            map.fieldPlace? ⟨1⟩ "label" = some ⟨⟨1, 79⟩, none⟩ ∧
            map.entryPlace? ⟨0⟩ "hours" (.key "mon") = some ⟨⟨1, 118⟩, none⟩)) = true := by
    decide +kernel
  obtain ⟨schema, built, passes⟩ := Schema.exists_built passes
  simp only [Bool.and_eq_true, decide_eq_true_eq, Option.any_eq_true] at passes
  obtain ⟨distinct, tracks, map, mapFound, places⟩ := passes
  obtain ⟨graph, found, mapEq⟩ := Option.bind_eq_some_iff.1 mapFound
  have reads := eq_ok_of_toOption found
  have exact := places_exact (Reader.mk schema {}) "Garden" document none distinct tracks reads
  simp only [ite_self] at exact
  obtain ⟨_, _, map', _, mapEq', placed⟩ := exact
  rw [mapEq] at mapEq'
  cases mapEq'
  refine ⟨schema, built, distinct, tracks, graph, map, reads, mapEq, ?_, places⟩
  intro entity reaches
  obtain ⟨start, layout, _, _, classEq, layoutEq, exact⟩ := placed entity reaches
  exact ⟨start, layout, classEq, layoutEq, exact⟩

end Trellis.Reading
