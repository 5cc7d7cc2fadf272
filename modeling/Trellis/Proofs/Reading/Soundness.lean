import Mathlib.Data.List.Nodup
import Trellis.Proofs.Graph.Conformance
import Trellis.Proofs.Reading.Runs
import Trellis.Reading.Reader

/-!
The graph of a read conforms to the schema.

Values are set by defaults, attributes, contents, scalar elements, lists and sets that grow, and
maps.  Each of them sets what the layout declares for the field, so what an entity has been given so
far is sound at every token.  This is shown of each part of a read and carried over a content from
token to token.
-/

namespace Trellis.Reading

open Trellis.Graph (Entity IsDefault Tree Value)
open Markup (Content Document Ending Tag)
open Schema (Collection Declarations Field FieldKind ItemType Layout MapEncoding ResolvedClass ScalarType
  TaggedField)

/-! ### Values in the making -/

def DistinctNames (layout : Layout) : Prop :=
  (layout.fields.map (·.name)).Nodup

instance (layout : Layout) : Decidable (DistinctNames layout) :=
  inferInstanceAs (Decidable (List.Nodup _))

theorem DistinctNames.eq_of_name_eq {layout : Layout} (distinct : DistinctNames layout)
    {field field' : TaggedField} (member : field ∈ layout.fields) (member' : field' ∈ layout.fields)
    (same : field.name = field'.name) : field = field' :=
  List.inj_on_of_nodup_map distinct member member' same

/-- What an entity has been given so far is what its layout asks for. -/
structure FieldsSound (property : Entity → Prop) (layout : Layout) (values : FieldValues) :
    Prop where
  distinct : OrderedMap.DistinctKeys values
  known : ∀ name ∈ OrderedMap.keys values, ∃ field ∈ layout.fields, field.name = name
  fits : ∀ field ∈ layout.fields, ∀ value, values.get? field.name = some value →
    value.Fits field.declared.kind
  sound : ∀ name value, (name, value) ∈ values → value.Sound property

def ElementsDefault (layout : Layout) (values : FieldValues) : Prop :=
  ∀ field ∈ layout.elementFields, ∀ value, values.get? field.name = some value →
    IsDefault field.declared value

variable {property : Entity → Prop} {layout : Layout} {values : FieldValues}

theorem FieldsSound.empty : FieldsSound property layout [] where
  distinct := List.nodup_nil
  known := by
    intro name member
    cases member
  fits := by
    intro field _ value found
    cases found
  sound := by
    intro name value member
    cases member

theorem FieldsSound.set (sound : FieldsSound property layout values) (names : DistinctNames layout)
    {field : TaggedField} (member : field ∈ layout.fields) {value : Value}
    (fits : value.Fits field.declared.kind) (valueSound : value.Sound property) :
    FieldsSound property layout (values.set field.name value) where
  distinct := OrderedMap.distinctKeys_set sound.distinct field.name value
  known := by
    intro name isKey
    rw [OrderedMap.keys_set] at isKey
    split at isKey
    · exact sound.known name isKey
    · rcases List.mem_append.1 isKey with old | new
      · exact sound.known name old
      · exact ⟨field, member, (List.mem_singleton.1 new).symm⟩
  fits := by
    intro other otherMember bound found
    rw [OrderedMap.get?_set] at found
    by_cases same : field.name = other.name
    · rw [if_pos same] at found
      cases found
      rw [← names.eq_of_name_eq member otherMember same]
      exact fits
    · rw [if_neg same] at found
      exact sound.fits other otherMember bound found
  sound := by
    intro name bound isPair
    rcases OrderedMap.mem_set isPair with ⟨_, rfl⟩ | old
    · exact valueSound
    · exact sound.sound name bound old

theorem ElementsDefault.set (defaults : ElementsDefault layout values)
    (names : DistinctNames layout) {field : TaggedField} (member : field ∈ layout.fields)
    {value : Value}
    (unlessDefault : field ∈ layout.elementFields → IsDefault field.declared value) :
    ElementsDefault layout (values.set field.name value) := by
  intro other otherMember bound found
  rw [OrderedMap.get?_set] at found
  by_cases same : field.name = other.name
  · rw [if_pos same] at found
    cases found
    have fieldEq := names.eq_of_name_eq member (List.mem_filter.1 otherMember).1 same
    subst fieldEq
    exact unlessDefault otherMember
  · rw [if_neg same] at found
    exact defaults other otherMember bound found

theorem mem_fields_of_elementFields {field : TaggedField} (member : field ∈ layout.elementFields) :
    field ∈ layout.fields :=
  (List.mem_filter.1 member).1

theorem not_isAttribute_of_elementFields {field : TaggedField}
    (member : field ∈ layout.elementFields) :
    field.declared.isAttribute = false ∧ field.declared.isContent = false := by
  have marks := (List.mem_filter.1 member).2
  simpa using marks

/-! ### Scalars -/

theorem kind_of_scalarType? {field : Field} {type : ScalarType}
    (scalar : field.scalarType? = some type) :
    field.kind = .scalar type := by
  unfold Field.scalarType? at scalar
  split at scalar
  · rename_i found kindEq
    cases scalar
    exact kindEq
  · cases scalar

private theorem fits_of_scalarType? {field : Field} {type : ScalarType} {value : Value}
    (scalar : field.scalarType? = some type) (typed : value.HasType type) :
    value.Fits field.kind := by
  rw [kind_of_scalarType? scalar]
  exact typed

private theorem scalarOf?_hasType {field : Field} {type : ScalarType} {text : String} {value : Value}
    (read : scalarOf? field type text = some value) : value.HasType type := by
  cases type with
  | boolean =>
      cases read
      trivial
  | character =>
      obtain ⟨c, _, rfl⟩ := Option.map_eq_some_iff.1 read
      trivial
  | integer width =>
      obtain ⟨number, found, rfl⟩ := Option.map_eq_some_iff.1 read
      exact (Number.FixedInt.read?_eq_some_iff.1 found).1
  | floating precision =>
      obtain ⟨number, _, rfl⟩ := Option.map_eq_some_iff.1 read
      rfl
  | text =>
      cases read
      trivial
  | date =>
      obtain ⟨moment, _, rfl⟩ := Option.map_eq_some_iff.1 read
      trivial
  | tree => cases read

private theorem fallback?_hasType {type : ScalarType} {value : Value}
    (taken : fallback? type = some value) :
    value.HasType type := by
  cases type with
  | character =>
      cases taken
      trivial
  | integer width =>
      cases taken
      rfl
  | floating precision =>
      cases taken
      rfl
  | boolean => cases taken
  | text => cases taken
  | date => cases taken
  | tree => cases taken

theorem coerce_hasType {strict : Bool} {field : Field} {type : ScalarType} {raw : String}
    {location : Location} {value : Value}
    (read : coerce strict field type raw location = .ok value) :
    value.HasType type := by
  simp only [coerce] at read
  split at read
  · rename_i found choice
    cases read
    rcases Option.or_eq_some_iff.1 choice with direct | ⟨_, instead⟩
    · exact scalarOf?_hasType direct
    · split at instead
      · cases instead
      · exact fallback?_hasType instead
  · cases read

theorem scalar_hasType {context : Context} {field : Field} {type : ScalarType} {tag : Tag}
    {inside : Content} {value : Value} (read : context.scalar field type tag inside = .ok value) :
    value.HasType type := by
  have textual (text : Except ReadError String)
      (read : (text >>= fun text =>
        coerce context.strict field type text (context.locate tag.position)) = .ok value) :
      value.HasType type := by
    cases text with
    | error error => cases read
    | ok text => exact coerce_hasType read
  cases type with
  | tree =>
      unfold Context.scalar at read
      cases treeEq : context.treeOf tag inside with
      | error error =>
          rw [treeEq] at read
          cases read
      | ok tree =>
          rw [treeEq] at read
          cases read
          trivial
  | _ => exact textual _ read

/-! ### Start tags -/

private theorem defaultValues_sound (names : DistinctNames layout) {location : Location}
    (read : defaultValues layout location = .ok values) :
    FieldsSound property layout values ∧ ElementsDefault layout values := by
  refine @defaultValues_induction layout location
    (fun values => FieldsSound property layout values ∧ ElementsDefault layout values) ?_ ?_ values read
  · refine ⟨.empty, ?_⟩
    intro field _ value found
    cases found
  · intro field member text type before value defaultEq typeEq coerceEq ⟨sound, defaults⟩
    have typed := coerce_hasType coerceEq
    have isDefault : IsDefault field.declared value :=
      ⟨text, type, location, defaultEq, typeEq, coerceEq⟩
    exact ⟨sound.set names member (fits_of_scalarType? typeEq typed) (Value.Sound.of_scalar typed),
      defaults.set names member fun _ => isDefault⟩

theorem attributeField?_mem {name : String} {field : TaggedField}
    (found : layout.attributeField? name = some field) :
    field ∈ layout.fields ∧ field.declared.isAttribute = true := by
  have marks := List.find?_some found
  refine ⟨List.mem_of_find?_eq_some found, ?_⟩
  simp only [Bool.and_eq_true] at marks
  exact marks.1

private theorem readAttributes_sound (context : Context) (frame : Frame)
    (names : DistinctNames frame.layout) (tag : Tag) (atRoot : Bool)
    (attributes : List (String × String)) (values : FieldValues)
    (sound : FieldsSound property frame.layout values)
    (defaults : ElementsDefault frame.layout values) :
    Ensures (context.readAttributes frame tag atRoot values attributes) fun values =>
      FieldsSound property frame.layout values ∧ ElementsDefault frame.layout values := by
  induction attributes generalizing values with
  | nil => exact .pure ⟨sound, defaults⟩
  | cons pair rest ih =>
      obtain ⟨name, raw⟩ := pair
      simp only [Context.readAttributes]
      split
      · cases fieldEq : frame.layout.attributeField? name with
        | none =>
            simp only
            split
            · exact .throw
            · exact ih values sound defaults
        | some field =>
            obtain ⟨member, isAttribute⟩ := attributeField?_mem fieldEq
            simp only
            cases typeEq : field.declared.scalarType? with
            | none => exact ih values sound defaults
            | some type =>
                refine Ensures.bind (Ensures.lift fun _ read => coerce_hasType read) ?_
                intro value typed
                have fits := fits_of_scalarType? typeEq typed
                have noElement : field ∉ frame.layout.elementFields := by
                  intro isElement
                  rw [(not_isAttribute_of_elementFields isElement).1] at isAttribute
                  cases isAttribute
                refine Ensures.after ?_
                exact ih _ (sound.set names member fits (Value.Sound.of_scalar typed))
                  (defaults.set names member fun isElement => absurd isElement noElement)
      · exact ih values sound defaults

structure Begun (property : Entity → Prop) (schema : Schema) (className : String)
    (begun : Frame × FieldValues) : Prop where
  resolved : ∃ resolved, schema.find? className = some resolved ∧
    resolved.declared.isAbstract = false ∧ begun.1.layout = resolved.layout
  names : DistinctNames begun.1.layout
  sound : FieldsSound property begun.1.layout begun.2
  defaults : ElementsDefault begun.1.layout begun.2

variable {context : Context}

def DistinctFields (schema : Schema) : Prop :=
  ∀ resolved ∈ schema.classes, DistinctNames resolved.layout

instance (schema : Schema) : Decidable (DistinctFields schema) :=
  inferInstanceAs (Decidable (∀ resolved ∈ schema.classes, DistinctNames resolved.layout))

private theorem beginEntity_begun (distinct : DistinctFields context.schema) (className : String)
    (tag : Tag)
    (atRoot : Bool) :
    Ensures (context.beginEntity className tag atRoot) (Begun property context.schema className) := by
  unfold Context.beginEntity
  cases foundEq : context.schema.find? className with
  | none => exact .throw
  | some resolved =>
      have names := distinct resolved (List.mem_of_find?_eq_some foundEq)
      simp only
      split
      · exact .throw
      · rename_i concrete
        have newId : Ensures (newEntity (context.locate tag.position)) fun _ => True :=
          fun _ _ _ _ => trivial
        refine newId.bind ?_
        intro id _
        have defaultsSound : Ensures (liftM (defaultValues resolved.layout (context.locate tag.position)))
            fun values => FieldsSound property resolved.layout values ∧
              ElementsDefault resolved.layout values :=
          .lift fun _ read => defaultValues_sound names read
        refine defaultsSound.bind ?_
        intro values begunValues
        refine (readAttributes_sound context ⟨id, resolved.layout, context.locate tag.position⟩ names tag
          atRoot tag.attributes values begunValues.1 begunValues.2).bind ?_
        intro values begunValues
        refine Ensures.after ?_
        exact .pure ⟨⟨resolved, foundEq, Bool.eq_false_iff.2 concrete, rfl⟩, names, begunValues.1,
          begunValues.2⟩

/-! ### Maps -/

private theorem readEntry_distinct (context : Context) (id : EntityId) (field : TaggedField)
    (encoding : MapEncoding) {entries : OrderedMap String String} (tag : Tag) (inside : Content)
    (distinct : entries.DistinctKeys) :
    Ensures (context.readEntry id field encoding entries tag inside) OrderedMap.DistinctKeys := by
  cases encoding with
  | inline =>
      refine Ensures.bind (Ensures.lift fun _ _ => trivial) ?_
      intro text _
      refine Ensures.after ?_
      exact .pure (OrderedMap.distinctKeys_set distinct _ _)
  | explode =>
      simp only [Context.readEntry]
      split
      · refine Ensures.bind (Ensures.lift fun _ _ => trivial) ?_
        intro parts _
        refine Ensures.after ?_
        exact .pure (OrderedMap.distinctKeys_set distinct _ _)
      · refine Ensures.after ?_
        exact .pure distinct

private theorem readEntries_distinct (context : Context) (id : EntityId) (field : TaggedField)
    (encoding : MapEncoding) (content : Content) {entries : OrderedMap String String}
    (distinct : entries.DistinctKeys) :
    Ensures (context.readEntries id field encoding entries content) OrderedMap.DistinctKeys := by
  induction content generalizing entries with
  | closed _ => exact .pure distinct
  | broken ending => exact .throw
  | text position text rest ih =>
      refine Ensures.after ?_
      exact ih distinct
  | element tag inside rest _ ihRest =>
      refine (readEntry_distinct context id field encoding tag inside distinct).bind ?_
      intro entries distinct
      exact ihRest distinct

private theorem readMap_sound (context : Context) (frame : Frame) (names : DistinctNames frame.layout)
    {field : TaggedField} (member : field ∈ frame.layout.fields) {encoding : MapEncoding}
    (kind : field.declared.kind = .map encoding) (tag : Tag) (inside : Content)
    (sound : FieldsSound property frame.layout values) :
    Ensures (context.readMap frame values field encoding tag inside)
      (FieldsSound property frame.layout) := by
  refine Ensures.after ?_
  have empty : OrderedMap.DistinctKeys ([] : OrderedMap String String) := List.nodup_nil
  refine (readEntries_distinct context frame.id field encoding inside empty).bind ?_
  intro entries distinct
  have fits : (Value.map entries).Fits field.declared.kind := by
    rw [kind]
    exact distinct
  exact .pure (sound.set names member fits .map)

/-! ### Entities -/

private theorem contentField?_mem {field : TaggedField} (found : layout.contentField? = some field) :
    field ∈ layout.fields ∧ field ∉ layout.elementFields := by
  refine ⟨List.mem_of_find?_eq_some found, ?_⟩
  intro isElement
  have isContent := List.find?_some found
  rw [(not_isAttribute_of_elementFields isElement).2] at isContent
  cases isContent

private theorem readContentField_sound (context : Context) (frame : Frame)
    (names : DistinctNames frame.layout) {field : TaggedField}
    (isContent : frame.layout.contentField? = some field) (tag : Tag) (inside : Content)
    (sound : FieldsSound property frame.layout values)
    (defaults : ElementsDefault frame.layout values) :
    Ensures (context.readContentField frame values field tag inside) fun values =>
      FieldsSound property frame.layout values ∧ ElementsDefault frame.layout values := by
  obtain ⟨member, noElement⟩ := contentField?_mem isContent
  unfold Context.readContentField
  cases typeEq : field.declared.scalarType? with
  | none =>
      refine Ensures.after ?_
      exact .pure ⟨sound, defaults⟩
  | some type =>
      refine Ensures.bind (Ensures.lift fun _ read => scalar_hasType read) ?_
      intro value typed
      have fits := fits_of_scalarType? typeEq typed
      refine Ensures.after ?_
      exact .pure ⟨sound.set names member fits (Value.Sound.of_scalar typed),
        defaults.set names member fun isElement => absurd isElement noElement⟩

/-- An entity that is given sound values conforms, and so do all entities in it. -/
private theorem entity_sound_of_values {className : String} {begun : Frame × FieldValues}
    (starts : Begun (Entity.Conforms context.schema) context.schema className begun)
    (sound : FieldsSound (Entity.Conforms context.schema) begun.1.layout values)
    (defaults : begun.1.layout.contentField?.isSome → ElementsDefault begun.1.layout values) :
    (Value.entity (.mk begun.1.id className values)).Sound (Entity.Conforms context.schema) := by
  obtain ⟨resolved, foundEq, concrete, layoutEq⟩ := starts.resolved
  rw [layoutEq] at sound defaults
  apply Value.Sound.entity
  apply Entity.reaches_of_sound
  · exact ⟨resolved, foundEq, concrete, sound.distinct, sound.known, sound.fits, defaults⟩
  · exact sound.sound

def ChildrenSound (schema : Schema) (children : ChildReader) : Prop :=
  ∀ frame values, DistinctNames frame.layout →
    FieldsSound (Entity.Conforms schema) frame.layout values →
    Ensures (children frame values) (FieldsSound (Entity.Conforms schema) frame.layout)

def HolderSound (schema : Schema) (collection : Collection) (type : ItemType) (holder : Value) :
    Prop :=
  holder.IsCollection collection type ∧ holder.Sound (Entity.Conforms schema)

def ItemsSound (schema : Schema) (items : ItemsReader) : Prop :=
  ∀ collection type, Ensures (items collection type) (HolderSound schema collection type)

private theorem holderSound_empty (schema : Schema) (collection : Collection) (type : ItemType) :
    HolderSound schema collection type (.collection collection []) := by
  refine ⟨.empty collection type, .collection ?_⟩
  intro item member
  cases member

variable {children : ChildReader} {items : ItemsReader}

private theorem entity_sound (distinct : DistinctFields context.schema) (className : String) (tag : Tag)
    (inside : Content) (atRoot : Bool) (childrenSound : ChildrenSound context.schema children) :
    Ensures (context.entity className tag inside atRoot children) fun entity =>
      entity.className = className ∧
        (Value.entity entity).Sound (Entity.Conforms context.schema) := by
  have begins : Ensures (context.beginEntity className tag atRoot)
      (Begun (Entity.Conforms context.schema) context.schema className) :=
    beginEntity_begun distinct className tag atRoot
  refine begins.bind ?_
  intro begun starts
  obtain ⟨frame, begunValues⟩ := begun
  simp only
  cases contentEq : frame.layout.contentField? with
  | none =>
      refine (childrenSound frame begunValues starts.names starts.sound).bind ?_
      intro values sound
      refine .pure ⟨rfl, entity_sound_of_values starts sound ?_⟩
      intro impossible
      rw [contentEq] at impossible
      cases impossible
  | some field =>
      refine (readContentField_sound context frame starts.names contentEq tag inside starts.sound
        starts.defaults).bind ?_
      intro values sound
      exact .pure ⟨rfl, entity_sound_of_values starts sound.1 fun _ => sound.2⟩

private theorem item_sound (distinct : DistinctFields context.schema) (field : TaggedField)
    (type : ItemType) (tag : Tag) (inside : Content)
    (childrenSound : ChildrenSound context.schema children) :
    Ensures (context.item field type tag inside children) fun value =>
      value.IsItem type ∧ value.Sound (Entity.Conforms context.schema) := by
  cases type with
  | entity className =>
      refine (entity_sound distinct className tag inside false childrenSound).map ?_
      intro entity sound
      exact sound
  | scalar type =>
      refine Ensures.lift ?_
      intro value read
      have typed := scalar_hasType read
      exact ⟨typed, .of_scalar typed⟩

private theorem addItem_sound (id : EntityId) (field : TaggedField) {collection : Collection}
    {type : ItemType} (tag : Tag) {holder value : Value}
    (holderSound : HolderSound context.schema collection type holder)
    (valueSound : value.IsItem type ∧ value.Sound (Entity.Conforms context.schema)) :
    Ensures (context.addItem id field collection type tag holder value)
      (HolderSound context.schema collection type) := by
  have pushed : HolderSound context.schema collection type (holder.push value).1 :=
    ⟨holderSound.1.push valueSound.1, holderSound.2.push valueSound.2⟩
  unfold Context.addItem
  cases added : (holder.push value).2 with
  | none =>
      simp only [added]
      exact .pure pushed
  | some position =>
      simp only [added]
      split
      · refine Ensures.after ?_
        exact .pure pushed
      · exact .pure pushed

theorem FieldsSound.set_holder {schema : Schema}
    (sound : FieldsSound (Entity.Conforms schema) layout values) (names : DistinctNames layout)
    {field : TaggedField} (member : field ∈ layout.fields) {collection : Collection}
    {type : ItemType} {wrapped : Bool} (kind : field.declared.kind = .many collection type wrapped)
    {holder : Value} (holderSound : HolderSound schema collection type holder) :
    FieldsSound (Entity.Conforms schema) layout (values.set field.name holder) := by
  apply sound.set names member _ holderSound.2
  rw [kind]
  exact holderSound.1

private theorem holderSound_getD {schema : Schema}
    (sound : FieldsSound (Entity.Conforms schema) layout values) {field : TaggedField}
    (member : field ∈ layout.fields) {collection : Collection} {type : ItemType} {wrapped : Bool}
    (kind : field.declared.kind = .many collection type wrapped) :
    HolderSound schema collection type
      ((values.get? field.name).getD (.collection collection [])) := by
  cases found : values.get? field.name with
  | none => exact holderSound_empty schema collection type
  | some holder =>
      have fits := sound.fits field member holder found
      rw [kind] at fits
      exact ⟨fits, sound.sound field.name holder (OrderedMap.mem_of_get? found)⟩

private theorem keepItem_sound (frame : Frame) (names : DistinctNames frame.layout)
    {field : TaggedField}
    (member : field ∈ frame.layout.fields) {collection : Collection} {type : ItemType}
    {wrapped : Bool} (kind : field.declared.kind = .many collection type wrapped) (tag : Tag)
    {value : Value}
    (sound : FieldsSound (Entity.Conforms context.schema) frame.layout values)
    (valueSound : value.IsItem type ∧ value.Sound (Entity.Conforms context.schema)) :
    Ensures (context.keepItem frame values field collection type tag value)
      (FieldsSound (Entity.Conforms context.schema) frame.layout) := by
  refine Ensures.after ?_
  refine (addItem_sound frame.id field tag (holderSound_getD sound member kind) valueSound).bind ?_
  intro holder holderSound
  exact .pure (sound.set_holder names member kind holderSound)

private theorem field_sound (distinct : DistinctFields context.schema) (frame : Frame)
    (names : DistinctNames frame.layout) {field : TaggedField}
    (member : field ∈ frame.layout.fields) (tag : Tag) (inside : Content)
    (sound : FieldsSound (Entity.Conforms context.schema) frame.layout values)
    (childrenSound : ChildrenSound context.schema children)
    (itemsSound : ItemsSound context.schema items) :
    Ensures (context.field frame values field tag inside children items)
      (FieldsSound (Entity.Conforms context.schema) frame.layout) := by
  unfold Context.field
  cases kind : field.declared.kind with
  | scalar type =>
      refine Ensures.bind (Ensures.lift fun _ read => scalar_hasType read) ?_
      intro value typed
      have fits : value.Fits field.declared.kind := by
        rw [kind]
        exact typed
      refine Ensures.after ?_
      exact .pure (sound.set names member fits (Value.Sound.of_scalar typed))
  | one target =>
      refine (entity_sound distinct target tag inside false childrenSound).bind ?_
      intro entity entitySound
      have fits : (Value.entity entity).Fits field.declared.kind := by
        rw [kind]
        exact entitySound.1
      exact .pure (sound.set names member fits entitySound.2)
  | many collection type wrapped =>
      cases wrapped with
      | true =>
          refine Ensures.after ?_
          refine (itemsSound collection type).bind ?_
          intro holder holderSound
          exact .pure (sound.set_holder names member kind holderSound)
      | false =>
          refine (item_sound distinct field type tag inside childrenSound).bind ?_
          intro value valueSound
          exact keepItem_sound frame names member kind tag sound valueSound
  | map encoding => exact readMap_sound context frame names member kind tag inside sound

/-! ### Contents -/

structure ContentSound (context : Context) (content : Content) : Prop where
  children : ∀ frame values seen, DistinctNames frame.layout →
    FieldsSound (Entity.Conforms context.schema) frame.layout values →
    Ensures (context.readChildren frame values seen content)
      (FieldsSound (Entity.Conforms context.schema) frame.layout)
  items : ∀ id field collection type holder, HolderSound context.schema collection type holder →
    Ensures (context.readItems id field collection type holder content)
      (HolderSound context.schema collection type)

theorem ContentSound.childrenSound {inside : Content} (sound : ContentSound context inside) :
    ChildrenSound context.schema (context.childrenIn inside) := by
  intro frame values names valuesSound
  exact sound.children frame values [] names valuesSound

theorem ContentSound.itemsSound {inside : Content} (sound : ContentSound context inside)
    (id : EntityId) (field : TaggedField) :
    ItemsSound context.schema (context.itemsIn id field inside) := by
  intro collection type
  exact sound.items id field collection type _ (holderSound_empty context.schema collection type)

/-- From one token of a content to the next, what has been read stays sound. -/
private theorem contentSound (distinct : DistinctFields context.schema) (content : Content) :
    ContentSound context content := by
  induction content with
  | closed encoding =>
      constructor
      · intro frame values seen names sound
        exact .pure sound
      · intro id field collection type holder sound
        exact .pure sound
  | broken ending =>
      constructor
      · intro frame values seen names sound
        exact .throw
      · intro id field collection type holder sound
        exact .throw
  | text position text rest ih =>
      constructor
      · intro frame values seen names sound
        refine Ensures.after ?_
        exact ih.children frame values seen names sound
      · intro id field collection type holder sound
        refine Ensures.after ?_
        exact ih.items id field collection type holder sound
  | element tag inside rest ihInside ihRest =>
      constructor
      · intro frame values seen names sound
        simp only [Context.readChildren]
        cases fieldEq : frame.layout.elementField? tag.name with
        | none =>
            refine Ensures.after ?_
            exact ihRest.children frame values seen names sound
        | some field =>
            have member := Layout.mem_fields_of_elementField? fieldEq
            refine Ensures.bind (Ensures.lift fun _ _ => trivial) ?_
            intro seen _
            refine (field_sound distinct frame names member tag inside sound ihInside.childrenSound
              (ihInside.itemsSound frame.id field)).bind ?_
            intro values sound
            exact ihRest.children frame values seen names sound
      · intro id field collection type holder sound
        simp only [Context.readItems]
        split
        · refine (item_sound distinct field type tag inside ihInside.childrenSound).bind ?_
          intro value valueSound
          refine (addItem_sound id field tag sound valueSound).bind ?_
          intro holder sound
          exact ihRest.items id field collection type holder sound
        · refine Ensures.after ?_
          exact ihRest.items id field collection type holder sound

/-! ### Documents -/

private theorem readDocument_sound (distinct : DistinctFields context.schema) (className : String)
    (document : Document) {graph : ObjectGraph}
    (read : context.readDocument className document = .ok graph) :
    graph.root.className = className ∧
      ∀ entity, graph.root.Reaches entity → entity.Conforms context.schema := by
  unfold Context.readDocument at read
  split at read
  · cases read
  · split at read
    · cases read
    · cases read
    · rename_i tag inside
      split at read
      · cases read
      · have sound := entity_sound distinct className tag inside true
          (contentSound distinct inside).childrenSound
        cases entityEq : context.readEntity className tag inside true .initial with
        | error error =>
            change Except.bind (context.readEntity className tag inside true .initial) _ = _ at read
            rw [entityEq] at read
            cases read
        | ok found =>
            change Except.bind (context.readEntity className tag inside true .initial) _ = _ at read
            obtain ⟨root, session⟩ := found
            rw [entityEq] at read
            cases read
            obtain ⟨classEq, rootSound⟩ := sound .initial root session entityEq
            exact ⟨classEq, rootSound root (.entity root)⟩

/-- The graph that a read succeeds with conforms to the schema at every depth. -/
theorem read_graph_conforms (reader : Reader) (className document : String) (source : Option Source)
    (distinct : DistinctFields reader.schema) {graph : ObjectGraph}
    (read : reader.readAs className document source = .ok graph) :
    graph.root.className = className ∧
      ∀ entity, graph.root.Reaches entity → entity.Conforms reader.schema := by
  let context : Context :=
    ⟨reader.schema, reader.options.strict, if reader.schema.tracksSources then source else none⟩
  have distinctHere : DistinctFields context.schema := distinct
  exact readDocument_sound distinctHere className (.parse reader.options.extended document) read

def library : Declarations where
  classes := [
    { name := "Library"
      fields := [
        { name := "name", kind := .scalar .text, isAttribute := true },
        { name := "books", kind := .many .list (.entity "Book") true },
        { name := "marks", kind := .many .set (.scalar .text) false },
        { name := "hours", kind := .map .inline }] },
    { name := "Book"
      fields := [{ name := "title", kind := .scalar .text, isContent := true }] }]
  roots := ["Library"]

def librarySchema : Schema where
  classes := library.classes.map fun declared => ⟨declared, declared.layout library.naming [declared]⟩
  root := "Library"
  naming := library.naming
  strictAttributes := true
  locationTracker := none
  sourceTracker := none

/-- A library of two books with one mark given twice is read, and what is read conforms. -/
theorem read_library_conforms :
    let reader : Reader := { schema := librarySchema }
    let document := "<library name='x'><books><book>A</book><book>B</book></books><mark>m</mark>" ++
      "<hours><mon>9</mon></hours><mark>m</mark></library>"
    library.build = .ok librarySchema ∧
    ∃ graph, reader.readAs "Library" document none = .ok graph ∧
      ∀ entity, graph.root.Reaches entity → entity.Conforms librarySchema := by
  intro reader document
  have built : library.build = .ok librarySchema := by decide +kernel
  have distinct : DistinctFields librarySchema := by decide +kernel
  have succeeds : (reader.readAs "Library" document none).toBool = true := by decide +kernel
  refine ⟨built, ?_⟩
  cases read : reader.readAs "Library" document none with
  | error error =>
      rw [read] at succeeds
      cases succeeds
  | ok graph =>
      exact ⟨graph, rfl, (read_graph_conforms reader "Library" document none distinct read).2⟩

end Trellis.Reading
