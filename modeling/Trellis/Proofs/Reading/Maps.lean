import Trellis.Proofs.Reading.Origins

/-!
Entries of maps.

Each element in that of a map is at most one entry.  An inline entry is named by its key and has its
value as text; an exploded one has them in the last of its `key` and of its `value` elements, and
whatever else it holds counts for nothing.  Keys keep the order in which they first come, and of the
entries with one key the last one says both what the key is bound to and where it stands.
-/

namespace Trellis.Markup

def Content.lastNamed? (content : Content) (name : String) : Option (Tag × Content) :=
  (content.elements.filter (·.1.name = name)).getLast?

theorem Content.lastNamed?_element (tag : Tag) (inside rest : Content) (name : String) :
    (Content.element tag inside rest).lastNamed? name =
      (rest.lastNamed? name).or (if tag.name = name then some (tag, inside) else none) := by
  unfold lastNamed?
  rw [elements, List.filter_cons]
  by_cases named : tag.name = name
  · simp only [named, decide_true, if_true, List.getLast?_cons]
    cases (rest.elements.filter (·.1.name = name)).getLast? <;> rfl
  · simp only [named, decide_false, if_false, Bool.false_eq_true, Option.or_none]

end Trellis.Markup

namespace Trellis.Reading

open Trellis.Graph (Entity Value)
open Markup (Content Document Tag)
open Schema (Collection Declarations ItemType Layout MapEncoding ScalarType TaggedField)

/-! ### Entries as they are written -/

structure WrittenEntry where
  key : String
  value : String
  /-- The start tag that the place of the entry is taken from. -/
  position : Position
  deriving DecidableEq

def WrittenEntry.pair (entry : WrittenEntry) : String × String :=
  (entry.key, entry.value)

def entryIn? (field : TaggedField) (encoding : MapEncoding) (element : Tag × Content) :
    Option WrittenEntry :=
  match encoding with
  | .inline =>
      some ⟨element.1.name, fieldText field.declared element.2.ownText, element.1.position⟩
  | .explode =>
      if element.1.name = field.itemTag then
        let key? := element.2.lastNamed? "key"
        let value? := element.2.lastNamed? "value"
        some {
          key := (key?.map (·.2.ownText)).getD ""
          value := (value?.map (fieldText field.declared ·.2.ownText)).getD ""
          position := (value?.map (·.1.position)).getD element.1.position }
      else none

def writtenEntries (field : TaggedField) (encoding : MapEncoding) (inside : Content) :
    List WrittenEntry :=
  inside.elements.filterMap (entryIn? field encoding)

/-- The entry is one of these, and none after it has its key. -/
def WrittenEntry.IsLastIn (entry : WrittenEntry) (entries : List WrittenEntry) : Prop :=
  ∃ before after, entries = before ++ entry :: after ∧ ∀ other ∈ after, other.key ≠ entry.key

/-- The keys of a map stand in the order in which the entries first have them, each of them once and
bound to the value of the last entry that has it. -/
structure BindsLast (entries : List WrittenEntry) (texts : OrderedMap String String) : Prop where
  keys_eq : texts.keys = (entries.map (·.key)).eraseDups
  distinct : texts.DistinctKeys
  bound : ∀ entry : WrittenEntry, entry.IsLastIn entries → texts.get? entry.key = some entry.value

def PlacesLast (context : Context) (id : EntityId) (name : String) (entries : List WrittenEntry)
    (map : LocationMap) : Prop :=
  ∀ entry : WrittenEntry, entry.IsLastIn entries →
    map.entryPlace? id name (.key entry.key) = some (context.locate entry.position)

/-! ### One entry after the other -/

section Entries

variable {entries : List WrittenEntry} {entry last : WrittenEntry}

theorem WrittenEntry.isLastIn_concat :
    entry.IsLastIn (entries ++ [last]) ↔
      entry = last ∨ (entry.key ≠ last.key ∧ entry.IsLastIn entries) := by
  constructor
  · rintro ⟨before, after, split, others⟩
    rcases List.eq_nil_or_concat' after with rfl | ⟨front, final, rfl⟩
    · exact .inl (List.singleton_inj.1 (List.append_inj_right' split rfl)).symm
    · rw [← List.cons_append, ← List.append_assoc] at split
      obtain ⟨entriesEq, lastEq⟩ := List.append_inj' split rfl
      cases List.singleton_inj.1 lastEq
      refine .inr ⟨(others last (List.mem_append_right _ (List.mem_singleton_self _))).symm, ?_⟩
      exact ⟨before, front, entriesEq, fun other member =>
        others other (List.mem_append_left _ member)⟩
  · rintro (rfl | ⟨otherKey, before, after, rfl, others⟩)
    · exact ⟨entries, [], rfl, nofun⟩
    · refine ⟨before, after ++ [last], by rw [List.append_assoc, List.cons_append], ?_⟩
      intro other member
      rcases List.mem_append.1 member with earlier | here
      · exact others other earlier
      · rw [List.mem_singleton.1 here]
        exact otherKey.symm

def textsOf (entries : List WrittenEntry) : OrderedMap String String :=
  .ofPairs (entries.map (·.pair))

def Context.recordEntries (context : Context) (id : EntityId) (name : String) (map : LocationMap)
    (entries : List WrittenEntry) : LocationMap :=
  entries.foldl (fun map entry =>
    map.setEntry id name (.key entry.key) (context.locate entry.position)) map

private theorem textsOf_concat (entries : List WrittenEntry) (last : WrittenEntry) :
    textsOf (entries ++ [last]) = (textsOf entries).set last.key last.value := by
  rw [textsOf, OrderedMap.ofPairs, List.map_append, List.foldl_append]
  rfl

private theorem bindsLast_textsOf (entries : List WrittenEntry) : BindsLast entries
    (textsOf entries) := by
  induction entries using List.reverseRecOn with
  | nil =>
      refine ⟨rfl, List.nodup_nil, ?_⟩
      rintro entry ⟨before, after, split, _⟩
      exact absurd split.symm (List.append_ne_nil_of_right_ne_nil _ (List.cons_ne_nil _ _))
  | append_singleton entries last ih =>
      rw [textsOf_concat]
      refine ⟨?_, OrderedMap.distinctKeys_set ih.distinct _ _, ?_⟩
      · rw [OrderedMap.keys_set_of_eraseDups ih.keys_eq, List.map_append]
        rfl
      · intro entry isLast
        rcases WrittenEntry.isLastIn_concat.1 isLast with rfl | ⟨otherKey, isLast⟩
        · exact OrderedMap.get?_set_self _ _ _
        · rw [OrderedMap.get?_set_of_ne _ _ otherKey.symm]
          exact ih.bound entry isLast

private theorem placesLast_recordEntries (context : Context) (id : EntityId) (name : String)
    (map : LocationMap) (entries : List WrittenEntry) :
    PlacesLast context id name entries (context.recordEntries id name map entries) := by
  induction entries using List.reverseRecOn with
  | nil =>
      rintro entry ⟨before, after, split, _⟩
      exact absurd split.symm (List.append_ne_nil_of_right_ne_nil _ (List.cons_ne_nil _ _))
  | append_singleton entries last ih =>
      intro entry isLast
      rw [Context.recordEntries, List.foldl_append, List.foldl_cons, List.foldl_nil,
        LocationMap.entryPlace?_setEntry]
      rcases WrittenEntry.isLastIn_concat.1 isLast with rfl | ⟨otherKey, isLast⟩
      · rw [if_pos ⟨rfl, rfl, rfl⟩]
      · rw [if_neg fun same => otherKey (EntryKey.key.inj same.2.2)]
        exact ih entry isLast

end Entries

/-! ### What is read -/

variable {context : Context} {id : EntityId} {field : TaggedField} {encoding : MapEncoding}
  {session session' : Session} {tag : Tag} {inside : Content}

private theorem entryPart_eq_ok {declared : Schema.Field} {parts parts' : EntryParts}
    (read : context.entryPart declared parts tag inside = .ok parts') :
    parts'.key = (if tag.name = "key" then some inside.ownText else none).or parts.key ∧
      parts'.value =
        (if tag.name = "value" then some (fieldText declared inside.ownText) else none).or parts.value ∧
      parts'.position = (if tag.name = "value" then some tag.position else none).or parts.position := by
  unfold Context.entryPart at read
  split at read
  · rename_i isKey
    obtain ⟨text, textEq, ends⟩ := eq_ok_of_bind read
    cases ends
    have notValue : ¬ tag.name = "value" := by
      rw [isKey]
      decide
    rw [if_pos isKey, if_neg notValue, if_neg notValue, ← textOf_eq_ok textEq]
    exact ⟨rfl, rfl, rfl⟩
  · rename_i notKey
    split at read
    · rename_i isValue
      obtain ⟨text, textEq, ends⟩ := eq_ok_of_bind read
      cases ends
      rw [if_neg notKey, if_pos isValue, if_pos isValue, ← textOf_eq_ok textEq]
      exact ⟨rfl, rfl, rfl⟩
    · rename_i notValue
      obtain ⟨_, _, ends⟩ := eq_ok_of_bind read
      cases ends
      rw [if_neg notKey, if_neg notValue, if_neg notValue]
      exact ⟨rfl, rfl, rfl⟩

/-- The last key and the last value of an exploded entry go before those found earlier. -/
private theorem entryParts_eq_ok {declared : Schema.Field} {parts parts' : EntryParts}
    {content : Content}
    (read : context.entryParts declared parts content = .ok parts') :
    parts'.key = ((content.lastNamed? "key").map (·.2.ownText)).or parts.key ∧
      parts'.value =
        ((content.lastNamed? "value").map (fieldText declared ·.2.ownText)).or parts.value ∧
      parts'.position = ((content.lastNamed? "value").map (·.1.position)).or parts.position := by
  induction content generalizing parts with
  | closed encoding =>
      cases read
      exact ⟨rfl, rfl, rfl⟩
  | broken ending => cases read
  | text position text rest ih =>
      rw [Context.entryParts] at read
      obtain ⟨_, _, goesOn⟩ := eq_ok_of_bind read
      exact ih goesOn
  | element tag inside rest _ ih =>
      rw [Context.entryParts] at read
      obtain ⟨between, partEq, goesOn⟩ := eq_ok_of_bind read
      obtain ⟨keyEq, valueEq, positionEq⟩ := ih goesOn
      obtain ⟨keyHere, valueHere, positionHere⟩ := entryPart_eq_ok partEq
      simp only [keyEq, valueEq, positionEq, keyHere, valueHere, positionHere,
        Content.lastNamed?_element, Option.map_or, Option.or_assoc]
      refine ⟨?_, ?_, ?_⟩ <;> split <;> rfl

private theorem readEntry_eq_ok {texts texts' : OrderedMap String String}
    (runs : context.readEntry id field encoding texts tag inside session = .ok (texts', session')) :
    (entryIn? field encoding (tag, inside) = none ∧ texts' = texts ∧ session' = session) ∨
      ∃ entry, entryIn? field encoding (tag, inside) = some entry ∧
        texts' = texts.set entry.key entry.value ∧
        session' = { session with
          locations := session.locations.setEntry id field.name (.key entry.key)
            (context.locate entry.position) } := by
  cases encoding with
  | inline =>
      obtain ⟨text, textEq, goesOn⟩ := Read.lift_bind_eq_ok runs
      obtain ⟨_, _, records, ends⟩ := Read.bind_eq_ok goesOn
      cases ends
      cases records
      rw [textOf_eq_ok textEq]
      exact .inr ⟨_, rfl, rfl, rfl⟩
  | explode =>
      simp only [Context.readEntry] at runs
      split at runs
      · rename_i named
        obtain ⟨parts, partsEq, goesOn⟩ := Read.lift_bind_eq_ok runs
        obtain ⟨_, _, records, ends⟩ := Read.bind_eq_ok goesOn
        cases ends
        cases records
        obtain ⟨keyEq, valueEq, positionEq⟩ := entryParts_eq_ok partsEq
        rw [keyEq, valueEq, positionEq, Option.or_none, Option.or_none, Option.or_none]
        exact .inr ⟨_, if_pos named, rfl, rfl⟩
      · rename_i other
        obtain ⟨_, _, ends⟩ := Read.lift_bind_eq_ok runs
        cases ends
        exact .inl ⟨if_neg other, rfl, rfl⟩

private theorem readEntries_eq_ok {texts texts' : OrderedMap String String} {content : Content}
    (runs : context.readEntries id field encoding texts content session = .ok (texts', session')) :
    texts' = (writtenEntries field encoding content).foldl
        (fun texts entry => texts.set entry.key entry.value) texts ∧
      session' = { session with
        locations := context.recordEntries id field.name session.locations
          (writtenEntries field encoding content) } := by
  induction content generalizing texts session with
  | closed encoding =>
      cases runs
      exact ⟨rfl, rfl⟩
  | broken ending => cases runs
  | text position text rest ih =>
      obtain ⟨_, _, goesOn⟩ := Read.lift_bind_eq_ok runs
      exact ih goesOn
  | element tag inside rest _ ih =>
      obtain ⟨between, middle, entryRun, goesOn⟩ := Read.bind_eq_ok runs
      obtain ⟨textsEq, sessionEq⟩ := ih goesOn
      rw [writtenEntries, Content.elements, List.filterMap_cons]
      rcases readEntry_eq_ok entryRun with ⟨noEntry, rfl, rfl⟩ | ⟨entry, isEntry, rfl, rfl⟩
      · rw [noEntry]
        exact ⟨textsEq, sessionEq⟩
      · rw [isEntry]
        exact ⟨textsEq, sessionEq⟩

private theorem readMap_eq_ok {frame : Frame} {values values' : FieldValues}
    (runs : context.readMap frame values field encoding tag inside session = .ok (values', session')) :
    values' = values.set field.name (.map (textsOf (writtenEntries field encoding inside))) ∧
      PlacesLast context frame.id field.name (writtenEntries field encoding inside)
        session'.locations := by
  obtain ⟨_, middle, _, goesOn⟩ := Read.bind_eq_ok runs
  obtain ⟨texts, _, entriesRun, ends⟩ := Read.bind_eq_ok goesOn
  cases ends
  obtain ⟨textsEq, sessionEq⟩ := readEntries_eq_ok entriesRun
  rw [textsEq, sessionEq, textsOf, OrderedMap.ofPairs, List.foldl_map]
  exact ⟨rfl, placesLast_recordEntries _ _ _ _ _⟩

/-! ### Maps of an entity -/

/-- The map is from a child that belongs to a map field of the name, and of the entries in it the last
ones count. -/
def MapFrom (context : Context) (layout : Layout) (id : EntityId) (children : List (Tag × Content))
    (name : String) (texts : OrderedMap String String) (map : LocationMap) : Prop :=
  ∃ field encoding, ∃ child ∈ children, layout.elementField? child.1.name = some field ∧
    field.name = name ∧ field.declared.kind = .map encoding ∧
    BindsLast (writtenEntries field encoding child.2) texts ∧
    PlacesLast context id name (writtenEntries field encoding child.2) map

def MapsFrom (context : Context) (frame : Frame) (children : List (Tag × Content))
    (values : FieldValues) (session : Session) : Prop :=
  ∀ name texts, values.get? name = some (.map texts) →
    MapFrom context frame.layout frame.id children name texts session.locations

section Children

variable {frame : Frame} {values values' : FieldValues} {children : List (Tag × Content)}

/-- Later children take nothing away, as long as nothing is recorded for the entries. -/
theorem MapFrom.later {name : String} {texts : OrderedMap String String}
    (mapFrom : MapFrom context frame.layout frame.id children name texts session.locations)
    (more : List (Tag × Content))
    (same : ∀ key, session'.locations.entryPlace? frame.id name key =
      session.locations.entryPlace? frame.id name key) :
    MapFrom context frame.layout frame.id (children ++ more) name texts session'.locations := by
  obtain ⟨field, encoding, child, member, routeEq, nameEq, kindEq, binds, places⟩ := mapFrom
  refine ⟨field, encoding, child, List.mem_append_left _ member, routeEq, nameEq, kindEq, binds, ?_⟩
  intro entry isLast
  rw [same]
  exact places entry isLast

private theorem push_eq_map {holder item : Value} {texts : OrderedMap String String}
    (pushed : (holder.push item).1 = .map texts) :
    holder = .map texts ∧ holder.push item = (.map texts, none) := by
  cases holder with
  | collection collection items =>
      cases collection with
      | list => cases pushed
      | set =>
          rw [Value.push] at pushed
          split at pushed <;> cases pushed
  | _ => exact ⟨pushed, congrArg (·, none) pushed⟩

private theorem unwrapped_map {collection : Collection} {type : ItemType}
    {texts : OrderedMap String String}
    (runs : context.unwrapped frame values field collection type tag inside
      (context.childrenIn inside) session = .ok (values', session'))
    (isOpen : session.Open frame.id) (mapped : values'.get? field.name = some (.map texts)) :
    values.get? field.name = some (.map texts) ∧ ∀ key,
      session'.locations.entryPlace? frame.id field.name key =
        session.locations.entryPlace? frame.id field.name key := by
  obtain ⟨item, middle, itemRun, keeps⟩ := Read.bind_eq_ok runs
  have itemSame : SameRecords frame.id field.name session middle :=
    (gives_item (childrenGive context inside) field type tag _ _ _ itemRun).elsewhere frame.id
      field.name id (.inl isOpen.begun)
  rw [keepItem_eq_ok keeps, OrderedMap.get?_set_self, Option.some.injEq] at mapped
  obtain ⟨holderEq, pushEq⟩ := push_eq_map mapped
  obtain ⟨_, recorded, records, goesOn⟩ := Read.bind_eq_ok keeps
  obtain ⟨_, _, adds, ends⟩ := Read.bind_eq_ok goesOn
  cases ends
  rw [Context.addItem, pushEq] at adds
  cases adds
  constructor
  · cases heldEq : values.get? field.name with
    | none =>
        rw [heldEq] at holderEq
        cases holderEq
    | some holder =>
        rw [heldEq] at holderEq
        exact congrArg some holderEq
  · intro key
    rw [← itemSame.entries key]
    unfold recordCollection at records
    split at records
    · cases records
      exact LocationMap.entryPlace?_setField _ _ _ _ _ _ _
    · cases records
      rfl

/-- A child gives a map if its field is one; otherwise the map that there is now was there before. -/
private theorem readField_map {texts : OrderedMap String String}
    (runs : context.readField frame values field tag inside session = .ok (values', session'))
    (isOpen : session.Open frame.id) (mapped : values'.get? field.name = some (.map texts)) :
    (∃ encoding, field.declared.kind = .map encoding ∧
      BindsLast (writtenEntries field encoding inside) texts ∧
      PlacesLast context frame.id field.name (writtenEntries field encoding inside)
        session'.locations) ∨
    (values.get? field.name = some (.map texts) ∧ ∀ key,
      session'.locations.entryPlace? frame.id field.name key =
        session.locations.entryPlace? frame.id field.name key) := by
  unfold Context.readField Context.field at runs
  cases kindEq : field.declared.kind with
  | scalar type =>
      simp only [kindEq] at runs
      obtain ⟨value, scalarEq, goesOn⟩ := Read.lift_bind_eq_ok runs
      obtain ⟨_, _, _, ends⟩ := Read.bind_eq_ok goesOn
      cases ends
      rw [OrderedMap.get?_set_self, Option.some.injEq] at mapped
      have typed := scalar_hasType scalarEq
      rw [mapped] at typed
      cases type <;> exact typed.elim
  | one target =>
      simp only [kindEq] at runs
      obtain ⟨entity, _, _, ends⟩ := Read.bind_eq_ok runs
      cases ends
      rw [OrderedMap.get?_set_self] at mapped
      cases mapped
  | many collection type wrapped =>
      cases wrapped with
      | true =>
          simp only [kindEq] at runs
          obtain ⟨_, _, _, goesOn⟩ := Read.bind_eq_ok runs
          obtain ⟨holder, _, itemsRun, ends⟩ := Read.bind_eq_ok goesOn
          cases ends
          have began : Value.collection collection [] =
              .collection collection ((keptItems collection []).map (·.2)) := rfl
          obtain ⟨_, _, holderEq⟩ := readItems_items itemsRun began
          rw [OrderedMap.get?_set_self, holderEq] at mapped
          cases mapped
      | false =>
          simp only [kindEq] at runs
          exact .inr (unwrapped_map runs isOpen mapped)
  | map encoding =>
      simp only [kindEq] at runs
      obtain ⟨rfl, places⟩ := readMap_eq_ok runs
      rw [OrderedMap.get?_set_self] at mapped
      cases mapped
      exact .inl ⟨encoding, rfl, bindsLast_textsOf _, places⟩

theorem MapsFrom.readField (mapsFrom : MapsFrom context frame children values session)
    (routeEq : frame.layout.elementField? tag.name = some field)
    (runs : context.readField frame values field tag inside session = .ok (values', session'))
    (isOpen : session.Open frame.id) :
    MapsFrom context frame (children ++ [(tag, inside)]) values' session' := by
  intro name texts mapped
  by_cases same : name = field.name
  · subst same
    rcases readField_map runs isOpen mapped with ⟨encoding, kindEq, binds, places⟩ | ⟨known, sameEntries⟩
    · have member : (tag, inside) ∈ children ++ [(tag, inside)] :=
        List.mem_append_right _ (List.mem_singleton_self _)
      exact ⟨field, encoding, _, member, routeEq, rfl, kindEq, binds, places⟩
    · exact (mapsFrom _ texts known).later _ sameEntries
  · obtain ⟨value, valuesEq⟩ := readField_eq_set runs
    rw [valuesEq, OrderedMap.get?_set_of_ne _ _ (Ne.symm same)] at mapped
    have advances := gives_readField context frame values field tag inside _ _ _ runs
    have sameRecords := advances.elsewhere frame.id name (fun own => same own.2.2) (.inl isOpen.begun)
    exact (mapsFrom name texts mapped).later _ sameRecords.entries

private theorem readChildren_mapsFrom {seen : List String} {content : Content}
    (mapsFrom : MapsFrom context frame children values session) (isOpen : session.Open frame.id)
    (runs : context.readChildren frame values seen content session = .ok (values', session')) :
    MapsFrom context frame (children ++ content.elements) values' session' := by
  induction content generalizing values seen session children with
  | closed encoding =>
      cases runs
      rw [Content.elements, List.append_nil]
      exact mapsFrom
  | broken ending => cases runs
  | text position text rest ih =>
      obtain ⟨_, _, goesOn⟩ := Read.lift_bind_eq_ok runs
      exact ih mapsFrom isOpen goesOn
  | element tag inside rest _ ih =>
      simp only [Context.readChildren] at runs
      rw [Content.elements, List.append_cons]
      cases routeEq : frame.layout.elementField? tag.name with
      | none =>
          simp only [routeEq] at runs
          obtain ⟨_, _, goesOn⟩ := Read.lift_bind_eq_ok runs
          refine ih ?_ isOpen goesOn
          exact fun name texts mapped => (mapsFrom name texts mapped).later _ fun _ => rfl
      | some field =>
          simp only [routeEq] at runs
          obtain ⟨_, _, goesOn⟩ := Read.lift_bind_eq_ok runs
          obtain ⟨between, middle, fieldRun, goesOn⟩ := Read.bind_eq_ok goesOn
          have advances := gives_readField context frame values field tag inside _ _ _ fieldRun
          have isOpen' := isOpen.later advances (ofOwnField_of _ _)
          exact ih (mapsFrom.readField routeEq fieldRun isOpen) isOpen' goesOn

end Children

/-! ### Entities -/

theorem AllScalars.not_map {values : FieldValues} (scalars : AllScalars values) {name : String}
    {texts : OrderedMap String String} : values.get? name ≠ some (.map texts) := by
  intro mapped
  obtain ⟨type, typed⟩ := scalars _ (OrderedMap.mem_of_get? mapped)
  cases type <;> exact typed.elim

/-- The map is held under the name of one of the map fields of the layout and is from a child of that
field.  If places are kept, they have those of its entries. -/
def HeldMap (context : Context) (layout : Layout) (id : EntityId) (inside : Content) (name : String)
    (texts : OrderedMap String String) (places : Option LocationMap) : Prop :=
  ∃ field encoding, ∃ child ∈ childrenOf layout field inside, field ∈ layout.fields ∧
    field.name = name ∧ field.declared.kind = .map encoding ∧
    BindsLast (writtenEntries field encoding child.2) texts ∧
    ∀ map ∈ places, PlacesLast context id name (writtenEntries field encoding child.2) map

private theorem readEntity_heldMap {className : String} {atRoot : Bool} {entity : Entity}
    {layout : Layout}
    (layoutEq : context.schema.layout? className = some layout)
    (runs : context.readEntity className tag inside atRoot session = .ok (entity, session'))
    (fresh : session.Fresh) {name : String} {texts : OrderedMap String String}
    (mapped : entity.get? name = some (.map texts)) :
    HeldMap context layout entity.id inside name texts (some session'.locations) := by
  obtain ⟨frame, values, begun, values', begins, goesOn, rfl⟩ := entity_eq_ok runs
  obtain rfl : frame.layout = layout :=
    Option.some.inj ((beginEntity_layout? begins).symm.trans layoutEq)
  have scalars := beginEntity_allScalars begins
  cases contentEq : frame.layout.contentField? with
  | some field =>
      simp only [contentEq] at goesOn
      have content := readContentField_allScalars scalars begun values' session' goesOn
      exact absurd mapped content.not_map
  | none =>
      simp only [contentEq] at goesOn
      have noMaps : MapsFrom context frame [] values begun :=
        fun name texts mapped => absurd mapped scalars.not_map
      obtain ⟨field, encoding, child, member, routeEq, nameEq, kindEq, binds, places⟩ :=
        readChildren_mapsFrom noMaps (beginEntity_open begins fresh) goesOn name texts mapped
      refine ⟨field, encoding, child, ?_, Layout.mem_fields_of_elementField? routeEq, nameEq, kindEq,
        binds, ?_⟩
      · rw [childrenOf, contentEq, Option.isNone_none, if_pos rfl]
        exact List.mem_filter.2 ⟨member, decide_eq_true routeEq⟩
      · intro map isMap
        cases isMap
        exact places

theorem HeldMap.same {layout : Layout} {name : String} {texts : OrderedMap String String}
    {places : Option LocationMap}
    (held : HeldMap context layout id inside name texts (some session.locations))
    (same : SameRecords id name session session')
    (placesEq : ∀ map ∈ places, map = session'.locations) :
    HeldMap context layout id inside name texts places := by
  obtain ⟨field, encoding, child, isChild, member, nameEq, kindEq, binds, recorded⟩ := held
  refine ⟨field, encoding, child, isChild, member, nameEq, kindEq, binds, ?_⟩
  intro map isMap entry isLast
  rw [placesEq map isMap, same.entries]
  exact recorded _ rfl entry isLast

/-- The content of the element of a map is read as the map, whatever has been read before. -/
def Context.ReadsAsMap (context : Context) (field : TaggedField) (encoding : MapEncoding)
    (inside : Content) (texts : OrderedMap String String) : Prop :=
  ∃ frame values tag session session',
    context.readMap frame values field encoding tag inside session =
      .ok (values.set field.name (.map texts), session')

theorem Context.ReadsAsMap.texts_eq {texts : OrderedMap String String}
    (reads : context.ReadsAsMap field encoding inside texts) :
    texts = textsOf (writtenEntries field encoding inside) := by
  obtain ⟨frame, values, tag, session, session', runs⟩ := reads
  have valueEq := congrArg (·.get? field.name) (readMap_eq_ok runs).1
  simp only [OrderedMap.get?_set_self, Option.some.injEq, Value.map.injEq] at valueEq
  exact valueEq

/-- Of the entries of a map that have one key the last one counts, for the value of the key and for its
place, and the keys keep the order in which they first come.  This holds of every element that is read
as a map, so that the same pairs give the same map in either encoding, and of every map that a graph
holds in the end. -/
theorem last_entries_count (reader : Reader) (className document : String) (source : Option Source)
    {graph : ObjectGraph} (reads : reader.readAs className document source = .ok graph) :
    (∀ (context : Context) frame values field encoding tag inside session values' session',
      context.readMap frame values field encoding tag inside session = .ok (values', session') →
        ∃ texts, values' = values.set field.name (.map texts) ∧
          BindsLast (writtenEntries field encoding inside) texts ∧
          PlacesLast context frame.id field.name (writtenEntries field encoding inside)
            session'.locations) ∧
    (∀ (context context' : Context) field field' encoding encoding' inside inside' texts texts',
      context.ReadsAsMap field encoding inside texts →
        context'.ReadsAsMap field' encoding' inside' texts' →
          (writtenEntries field encoding inside).map (·.pair) =
            (writtenEntries field' encoding' inside').map (·.pair) →
          texts = texts') ∧
    let context : Context :=
      ⟨reader.schema, reader.options.strict, if reader.schema.tracksSources then source else none⟩
    ∃ tag inside, Document.parse reader.options.extended document = .rooted tag inside ∧
      graph.locations.isSome = reader.schema.tracksLocations ∧
      ∀ entity, graph.root.Reaches entity → ∃ start layout,
        IsEntityAt context (Start.all reader.schema ⟨className, tag, inside⟩) entity start layout ∧
        ∀ name texts, entity.get? name = some (.map texts) →
          HeldMap context layout entity.id start.inside name texts graph.locations := by
  refine ⟨?_, ?_, ?_⟩
  · intro context frame values field encoding tag inside session values' session' runs
    obtain ⟨valuesEq, places⟩ := readMap_eq_ok runs
    exact ⟨_, valuesEq, bindsLast_textsOf _, places⟩
  · intro context context' field field' encoding encoding' inside inside' texts texts' first second
      pairsEq
    rw [first.texts_eq, second.texts_eq, textsOf, textsOf, pairsEq]
  · intro context
    obtain ⟨tag, inside, session, documentEq, entityEq, locationsEq⟩ := readDocument_eq_ok reads
    refine ⟨tag, inside, documentEq, ?_, ?_⟩
    · rw [locationsEq]
      cases tracksEq : reader.schema.tracksLocations <;> rfl
    · intro entity reaches
      obtain ⟨start, isStart, before, after, nextEq, fresh, readEq, _, same⟩ :=
        ((root_numbered entityEq).settled entity (Graph.Entity.mem_all_iff.2 reaches)).read
      obtain ⟨frame, values, begun, values', begins, _, rfl⟩ := entity_eq_ok readEq
      have layoutEq := beginEntity_layout? begins
      refine ⟨start, frame.layout, ⟨isStart, rfl, layoutEq, before, after, nextEq, readEq⟩, ?_⟩
      intro name texts mapped
      refine (readEntity_heldMap layoutEq readEq fresh mapped).same (same name) ?_
      intro map isMap
      rw [Option.mem_def, locationsEq] at isMap
      by_cases tracks : reader.schema.tracksLocations = true
      · rw [if_pos tracks] at isMap
        exact (Option.some.inj isMap).symm
      · rw [if_neg tracks] at isMap
        cases isMap

def kiosk : Declarations where
  classes := [
    { name := "Kiosk"
      fields := [
        { name := "hours", kind := .map .inline },
        { name := "prices", kind := .map .explode, itemTag := some "p" }] },
    { name := "Place" }]
  roots := ["Kiosk"]
  locationTracker := some "Place"

private theorem eq_map_of_map? {value? : Option Value} {texts : OrderedMap String String}
    (found : value?.bind (·.map?) = some texts) : value? = some (.map texts) := by
  obtain ⟨value, rfl, textsEq⟩ := Option.bind_eq_some_iff.1 found
  cases value <;> cases textsEq
  rfl

/-- A kiosk whose hours and prices come to the same map.  Its first price has no value, and its last
one has a key too many. -/
theorem last_entries_count_of_kiosk :
    let document := "<kiosk><hours><a>1</a><b>2</b><a>3</a></hours><prices><p><key>a</key></p>" ++
      "<p><key>b</key><value>2</value></p><p><value>3</value><x/><key>b</key><key>a</key></p>" ++
      "</prices></kiosk>"
    let texts := [("a", "3"), ("b", "2")]
    ∃ schema graph map layout inside,
      kiosk.build = .ok schema ∧ (Reader.mk schema {}).readAs "Kiosk" document none = .ok graph ∧
      graph.locations = some map ∧
      (∀ name ∈ ["hours", "prices"], graph.root.get? name = some (.map texts) ∧
        HeldMap ⟨schema, true, none⟩ layout ⟨0⟩ inside name texts (some map)) ∧
      map.entryPlace? ⟨0⟩ "hours" (.key "a") = some ⟨⟨1, 31⟩, none⟩ ∧
      map.entryPlace? ⟨0⟩ "prices" (.key "a") = some ⟨⟨1, 112⟩, none⟩ ∧
      let one (name text : String) (rest : Content) : Content :=
        .element ⟨name, [], ⟨1, 1⟩⟩ (.text ⟨1, 1⟩ text (.closed "UTF-8")) rest
      let inline : Content := one "a" "1" (.closed "UTF-8")
      let exploded : Content := .element ⟨"price", [], ⟨1, 1⟩⟩
        (one "key" "a" (one "value" "1" (.closed "UTF-8"))) (.closed "UTF-8")
      ∃ first second hours prices,
        Context.ReadsAsMap ⟨schema, true, none⟩ hours .inline inline first ∧
        Context.ReadsAsMap ⟨schema, true, none⟩ prices .explode exploded second ∧
        BindsLast (writtenEntries hours .inline inline) first ∧ first = second := by
  intro document texts
  have passes : kiosk.build.toOption.any (fun schema =>
      ((Reader.mk schema {}).readAs "Kiosk" document none).toOption.any fun graph =>
        graph.root.id = ⟨0⟩ ∧ (graph.root.get? "hours").bind (·.map?) = some texts ∧
        (graph.root.get? "prices").bind (·.map?) = some texts ∧
        graph.locations.any fun map =>
          map.entryPlace? ⟨0⟩ "hours" (.key "a") = some ⟨⟨1, 31⟩, none⟩ ∧
          map.entryPlace? ⟨0⟩ "prices" (.key "a") = some ⟨⟨1, 112⟩, none⟩) = true := by
    decide +kernel
  obtain ⟨schema, built, passes⟩ := Schema.exists_built passes
  simp only [Option.any_eq_true, decide_eq_true_eq] at passes
  obtain ⟨graph, found, idEq, hoursEq, pricesEq, map, mapEq, places⟩ := passes
  have reads := eq_ok_of_toOption found
  obtain ⟨binds, agree, _, _, _, _, held⟩ :=
    last_entries_count (Reader.mk schema {}) "Kiosk" document none reads
  obtain ⟨start, layout, _, held⟩ := held graph.root (.self _)
  simp only [ite_self, mapEq, idEq] at held
  refine ⟨schema, graph, map, layout, start.inside, built, reads, mapEq, ?_, places.1, places.2, ?_⟩
  · intro name member
    have textsEq : graph.root.get? name = some (.map texts) := by
      rcases List.mem_pair.1 member with rfl | rfl
      · exact eq_map_of_map? hoursEq
      · exact eq_map_of_map? pricesEq
    exact ⟨textsEq, held name texts textsEq⟩
  · intro one inline exploded
    let hours : TaggedField := ⟨{ name := "hours", kind := .map .inline }, "hours", "hour"⟩
    let prices : TaggedField := ⟨{ name := "prices", kind := .map .explode }, "prices", "price"⟩
    let frame : Frame := ⟨⟨0⟩, layout, ⟨⟨1, 1⟩, none⟩⟩
    let context : Context := ⟨schema, true, none⟩
    obtain ⟨_, inlineRun⟩ : ∃ session,
        context.readMap frame [] hours .inline ⟨"hours", [], ⟨1, 1⟩⟩ inline .initial =
          .ok ([("hours", .map [("a", "1")])], session) := ⟨_, rfl⟩
    obtain ⟨_, explodedRun⟩ : ∃ session,
        context.readMap frame [] prices .explode ⟨"prices", [], ⟨1, 1⟩⟩ exploded .initial =
          .ok ([("prices", .map [("a", "1")])], session) := ⟨_, rfl⟩
    obtain ⟨first, firstEq, firstBinds, _⟩ := binds _ _ _ _ _ _ _ _ _ _ inlineRun
    obtain ⟨second, secondEq, _⟩ := binds _ _ _ _ _ _ _ _ _ _ explodedRun
    rw [firstEq] at inlineRun
    rw [secondEq] at explodedRun
    have firstReads : context.ReadsAsMap hours .inline inline first := ⟨_, _, _, _, _, inlineRun⟩
    have secondReads : context.ReadsAsMap prices .explode exploded second := ⟨_, _, _, _, _, explodedRun⟩
    exact ⟨first, second, hours, prices, firstReads, secondReads, firstBinds,
      agree _ _ _ _ _ _ _ _ _ _ firstReads secondReads rfl⟩

end Trellis.Reading
