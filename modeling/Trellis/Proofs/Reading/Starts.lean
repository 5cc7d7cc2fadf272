import Trellis.Proofs.Reading.Roles
import Trellis.Proofs.Reading.Runs

/-!
Start tags of entities.

The schema says which elements are read as entities.  A read gives one identity to each of them, in
the order of their start tags, and records the place of the start tag.  Other places are recorded
for the entity at hand alone, so that what is recorded for an entity is settled at its end tag.
-/

namespace Trellis.Reading

open Trellis.Graph (Entity Value)
open Markup (Content Tag)
open Schema (Collection ItemType Layout MapEncoding TaggedField)

/-! ### Elements read as entities -/

structure Start where
  className : String
  tag : Tag
  inside : Content

def itemClass? : ItemType → Option String
  | .entity className => some className
  | .scalar _ => none

def fieldClass? (field : TaggedField) : Option String :=
  match field.declared.kind with
  | .one target => some target
  | .many _ type false => itemClass? type
  | _ => none

def Role.childClass? (role : Role) (name : String) : Option String :=
  match role with
  | .entity layout => (layout.elementField? name).bind fieldClass?
  | .items itemTag type => if name = itemTag then itemClass? type else none
  | _ => none

def startAt (className : Option String) (tag : Tag) (inside : Content) : List Start :=
  className.toList.map fun name => ⟨name, tag, inside⟩

/-- The elements read as entities in the content of an element, in the order of their start tags. -/
def startsIn (schema : Schema) (role : Option Role) : Content → List Start
  | .closed _ => []
  | .broken _ => []
  | .text _ _ rest => startsIn schema role rest
  | .element tag inside rest =>
      startAt (role.bind (·.childClass? tag.name)) tag inside ++
        startsIn schema (role.bind (·.child? schema tag.name)) inside ++ startsIn schema role rest

def itemStarts (schema : Schema) (type : ItemType) (tag : Tag) (inside : Content) : List Start :=
  startAt (itemClass? type) tag inside ++ startsIn schema (itemRole? schema type) inside

def fieldStarts (schema : Schema) (field : TaggedField) (tag : Tag) (inside : Content) : List Start :=
  startAt (fieldClass? field) tag inside ++ startsIn schema (fieldRole? schema field) inside

def Start.all (schema : Schema) (start : Start) : List Start :=
  start :: startsIn schema (entityRole? schema start.className) start.inside

theorem startsIn_none (schema : Schema) (content : Content) : startsIn schema none content = [] := by
  induction content with
  | closed encoding => rfl
  | broken ending => rfl
  | text position text rest ih => exact ih
  | element tag inside rest ihInside ihRest =>
      simp only [startsIn, ihRest, Option.bind_none, ihInside]
      rfl

private theorem startsIn_map (schema : Schema) {role : Role}
    (inMap : role = .entry ∨ ∃ encoding itemTag, role = .entries encoding itemTag)
    (content : Content) : startsIn schema (some role) content = [] := by
  induction content generalizing role with
  | closed encoding => rfl
  | broken ending => rfl
  | text position text rest ih => exact ih inMap
  | element tag inside rest ihInside ihRest =>
      have below : startsIn schema (role.child? schema tag.name) inside = [] := by
        rcases inMap with rfl | ⟨encoding, itemTag, rfl⟩
        · exact startsIn_none schema inside
        · cases encoding with
          | inline => exact startsIn_none schema inside
          | explode =>
              simp only [Role.child?]
              split
              · exact ihInside (.inl rfl)
              · exact startsIn_none schema inside
      have noClass : role.childClass? tag.name = none := by
        rcases inMap with rfl | ⟨encoding, itemTag, rfl⟩ <;> rfl
      simp only [startsIn, Option.bind_some, noClass, below, ihRest inMap]
      rfl

/-! ### Sessions -/

structure SameRecords (id : EntityId) (field : String) (session session' : Session) : Prop where
  place : session'.locations.fieldPlace? id field = session.locations.fieldPlace? id field
  entries : ∀ key,
    session'.locations.entryPlace? id field key = session.locations.entryPlace? id field key

theorem SameRecords.refl (id : EntityId) (field : String) (session : Session) :
    SameRecords id field session session :=
  ⟨rfl, fun _ => rfl⟩

theorem SameRecords.trans {id : EntityId} {field : String} {first second third : Session}
    (begins : SameRecords id field first second) (goesOn : SameRecords id field second third) :
    SameRecords id field first third :=
  ⟨goesOn.place.trans begins.place, fun key => (goesOn.entries key).trans (begins.entries key)⟩

structure NoRecords (id : EntityId) (field : String) (session : Session) : Prop where
  place : session.locations.fieldPlace? id field = none
  entries : ∀ key, session.locations.entryPlace? id field key = none

theorem SameRecords.noRecords {id : EntityId} {field : String} {session session' : Session}
    (same : SameRecords id field session session') (none : NoRecords id field session) :
    NoRecords id field session' :=
  ⟨same.place.trans none.place, fun key => (same.entries key).trans (none.entries key)⟩

def Session.Fresh (session : Session) : Prop :=
  ∀ id : EntityId, session.nextId ≤ id.value → ∀ field, NoRecords id field session

abbrev Owned := EntityId → String → Prop

def ofEntity (id : EntityId) : Owned := fun other _ => other = id

def ofField (id : EntityId) (field : TaggedField) : Owned := fun other name =>
  other = id ∧ name = field.name

/-- One field of one entity, unless its values are entities. -/
def ofOwnField (id : EntityId) (field : TaggedField) : Owned := fun other name =>
  field.declared.target? = none ∧ ofField id field other name

def ofItems (id : EntityId) (field : TaggedField) (type : ItemType) : Owned := fun other name =>
  isRecorded type = true ∧ ofField id field other name

def ofFrame (frame : Frame) : Owned := fun other name =>
  ∃ field ∈ frame.layout.fields, ofField frame.id field other name

def ofElements (frame : Frame) : Owned := fun other name =>
  ∃ field ∈ frame.layout.elementFields, ofOwnField frame.id field other name

def nowhere : Owned := fun _ _ => False

def Context.startPlaces (context : Context) (first : Nat) (starts : List Start) :
    List (EntityId × Location) :=
  ((starts.zipIdx first).map fun entry => (⟨entry.2⟩, context.locate entry.1.tag.position)).reverse

/-- The second session comes from the first by giving identities to the elements, one after the
other, and by recording places for these entities and for `own` fields. -/
structure Advances (context : Context) (starts : List Start) (own : Owned)
    (session session' : Session) : Prop where
  nextId_eq : session'.nextId = session.nextId + starts.length
  entities_eq : session'.locations.entities =
    context.startPlaces session.nextId starts ++ session.locations.entities
  elsewhere : ∀ (id : EntityId) field, ¬ own id field →
    id.value < session.nextId ∨ session'.nextId ≤ id.value → SameRecords id field session session'

theorem Context.startPlaces_append (context : Context) (first : Nat) (starts later : List Start) :
    context.startPlaces first (starts ++ later) =
      context.startPlaces (first + starts.length) later ++ context.startPlaces first starts := by
  simp only [Context.startPlaces, List.zipIdx_append, List.map_append, List.reverse_append]

namespace Advances

variable {context : Context} {starts later : List Start} {own : Owned}
  {session session' session'' : Session}

theorem refl (context : Context) (own : Owned) (session : Session) :
    Advances context [] own session session :=
  ⟨rfl, rfl, fun id field _ _ => .refl id field session⟩

theorem le (advances : Advances context starts own session session') :
    session.nextId ≤ session'.nextId := by
  rw [advances.nextId_eq]
  exact Nat.le_add_right _ _

theorem trans (begins : Advances context starts own session session')
    (goesOn : Advances context later own session' session'') :
    Advances context (starts ++ later) own session session'' where
  nextId_eq := by rw [goesOn.nextId_eq, begins.nextId_eq, List.length_append, Nat.add_assoc]
  entities_eq := by
    rw [goesOn.entities_eq, begins.entities_eq, begins.nextId_eq, Context.startPlaces_append,
      List.append_assoc]
  elsewhere id field other outside := by
    have first := begins.le
    have second := goesOn.le
    refine (begins.elsewhere id field other ?_).trans (goesOn.elsewhere id field other ?_)
    · omega
    · omega

theorem weaken {wider : Owned} (advances : Advances context starts own session session')
    (implies : ∀ id field, own id field → wider id field) :
    Advances context starts wider session session' :=
  ⟨advances.nextId_eq, advances.entities_eq, fun id field other outside =>
    advances.elsewhere id field (fun isOwn => other (implies id field isOwn)) outside⟩

theorem recordField (id : EntityId) (field : TaggedField) (location : Location) :
    Advances context [] (ofField id field) session
      { session with locations := session.locations.setField id field.name location } := by
  refine ⟨rfl, ?_, ?_⟩
  · simp only [LocationMap.setField]
    split <;> rfl
  · intro other name notOwn _
    have isOther : ¬(other = id ∧ name = field.name) := notOwn
    refine ⟨?_, fun _ => LocationMap.entryPlace?_setField _ _ _ _ _ _ _⟩
    rw [LocationMap.fieldPlace?_setField, if_neg isOther]

theorem recordEntry (id : EntityId) (field : TaggedField) (key : EntryKey) (location : Location) :
    Advances context [] (ofField id field) session
      { session with locations := session.locations.setEntry id field.name key location } := by
  refine ⟨rfl, rfl, ?_⟩
  intro other name notOwn _
  refine ⟨LocationMap.fieldPlace?_setEntry _ _ _ _ _ _ _, ?_⟩
  intro another
  rw [LocationMap.entryPlace?_setEntry, if_neg fun same => notOwn ⟨same.1, same.2.1⟩]

theorem entity (start : Start) {newSession : Session}
    (newEq : newSession = ⟨session.nextId + 1,
      session.locations.setEntity ⟨session.nextId⟩ (context.locate start.tag.position)⟩)
    (advances : Advances context starts (ofEntity ⟨session.nextId⟩) newSession session') :
    Advances context (start :: starts) nowhere session session' := by
  have nextEq : session'.nextId = session.nextId + 1 + starts.length := by
    rw [advances.nextId_eq, newEq]
  have entitiesEq := advances.entities_eq
  rw [newEq] at entitiesEq
  refine ⟨?_, ?_, ?_⟩
  · rw [nextEq, List.length_cons]
    omega
  · rw [entitiesEq, ← List.singleton_append, Context.startPlaces_append, List.append_assoc]
    rfl
  · intro id field _ outside
    have other : ¬ id = ⟨session.nextId⟩ := by
      rintro rfl
      simp only at outside
      omega
    have newNext : newSession.nextId = session.nextId + 1 := by rw [newEq]
    have there := advances.elsewhere id field other (by omega)
    rw [newEq] at there
    exact ⟨there.place, there.entries⟩

end Advances

/-! ### What the parts of a read give identities to -/

/-- If the read succeeds, it gives identities to these elements. -/
def Gives (context : Context) (starts : List Start) (own : Owned) {α : Type}
    (read : Read α) : Prop :=
  ∀ session value session', read session = .ok (value, session') →
    Advances context starts own session session'

namespace Gives

variable {context : Context} {starts later : List Start} {own : Owned} {α β : Type}
  {read : Read α}

theorem pure (value : α) : Gives context [] own (pure value) := by
  intro session found session' runs
  cases runs
  exact .refl _ _ _

theorem throw (error : ReadError) : Gives context starts own (MonadExcept.throw error : Read α) := by
  intro session found session' runs
  cases runs

theorem bind {next : α → Read β} (first : Gives context starts own read)
    (second : ∀ value, Gives context later own (next value)) :
    Gives context (starts ++ later) own (read >>= next) := by
  intro session found session' runs
  obtain ⟨value, middle, readEq, nextEq⟩ := Read.bind_eq_ok runs
  exact (first session value middle readEq).trans (second value middle found session' nextEq)

theorem lift (outcome : Except ReadError α) : Gives context [] own (liftM outcome) := by
  intro session found session' runs
  obtain ⟨_, rfl⟩ := Read.lift_eq_ok runs
  exact .refl _ _ _

theorem after {next : α → Read β} (first : Gives context [] own read)
    (second : ∀ value, Gives context starts own (next value)) :
    Gives context starts own (read >>= next) :=
  first.bind second

theorem before {next : α → Read β} (first : Gives context starts own read)
    (second : ∀ value, Gives context [] own (next value)) :
    Gives context starts own (read >>= next) := by
  have both := first.bind second
  rwa [List.append_nil] at both

theorem map (f : α → β) (first : Gives context starts own read) :
    Gives context starts own (f <$> read) := by
  rw [← bind_pure_comp]
  exact first.before fun value => .pure (f value)

theorem weaken {wider : Owned} (first : Gives context starts own read)
    (implies : ∀ id field, own id field → wider id field) : Gives context starts wider read :=
  fun session value session' runs => (first session value session' runs).weaken implies

theorem among (own : Owned) (first : Gives context starts nowhere read) :
    Gives context starts own read :=
  first.weaken fun _ _ none => none.elim

theorem recordField (id : EntityId) (field : TaggedField) (location : Location) :
    Gives context [] (ofField id field) (recordField id field.name location) := by
  intro session found session' runs
  cases runs
  exact .recordField id field location

theorem recordEntry (id : EntityId) (field : TaggedField) (key : EntryKey) (location : Location) :
    Gives context [] (ofField id field) (recordEntry id field.name key location) := by
  intro session found session' runs
  cases runs
  exact .recordEntry id field key location

end Gives

section Parts

variable (context : Context) (id : EntityId)

private theorem gives_readEntry (field : TaggedField) (encoding : MapEncoding)
    (entries : OrderedMap String String) (tag : Tag) (inside : Content) :
    Gives context [] (ofField id field) (context.readEntry id field encoding entries tag inside) := by
  cases encoding with
  | inline =>
      apply (Gives.lift _).after
      intro text
      exact (Gives.recordEntry id _ _ _).after fun _ => .pure _
  | explode =>
      simp only [Context.readEntry]
      split
      · apply (Gives.lift _).after
        intro parts
        exact (Gives.recordEntry id _ _ _).after fun _ => .pure _
      · exact (Gives.lift _).after fun _ => .pure _

theorem gives_readEntries (field : TaggedField) (encoding : MapEncoding) (content : Content)
    (entries : OrderedMap String String) :
    Gives context [] (ofField id field) (context.readEntries id field encoding entries content) := by
  induction content generalizing entries with
  | closed encoding => exact .pure entries
  | broken ending => exact .throw _
  | text position text rest ih => exact (Gives.lift _).after fun _ => ih entries
  | element tag inside rest _ ihRest =>
      exact (gives_readEntry context id field encoding entries tag inside).after ihRest

theorem gives_recordCollection (field : TaggedField) (type : ItemType) (location : Location) :
    Gives context [] (ofItems id field type) (recordCollection id field.name type location) := by
  unfold recordCollection
  split
  · rename_i recorded
    exact (Gives.recordField id field location).weaken fun _ _ isOwn => ⟨recorded, isOwn⟩
  · exact .pure ()

theorem gives_addItem (field : TaggedField) (collection : Collection) (type : ItemType) (tag : Tag)
    (holder value : Value) :
    Gives context [] (ofItems id field type)
      (context.addItem id field collection type tag holder value) := by
  unfold Context.addItem
  obtain ⟨pushed, added⟩ := holder.push value
  cases added with
  | none => exact .pure pushed
  | some position =>
      simp only
      split
      · rename_i recorded
        have wider (other : EntityId) (name : String) (isOwn : ofField id field other name) :
            ofItems id field type other name :=
          ⟨recorded, isOwn⟩
        exact ((Gives.recordEntry id field _ _).weaken wider).after fun _ => .pure pushed
      · exact .pure pushed

variable (frame : Frame)

theorem gives_keepItem (values : FieldValues) (field : TaggedField) (collection : Collection)
    (type : ItemType) (tag : Tag) (value : Value) :
    Gives context [] (ofItems frame.id field type)
      (context.keepItem frame values field collection type tag value) := by
  apply (gives_recordCollection context frame.id field type _).after
  intro _
  exact (gives_addItem context frame.id field collection type tag _ value).after fun _ => .pure _

private theorem gives_readMap (values : FieldValues) (field : TaggedField) (encoding : MapEncoding)
    (tag : Tag)
    (inside : Content) :
    Gives context [] (ofField frame.id field)
      (context.readMap frame values field encoding tag inside) := by
  apply (Gives.recordField frame.id field _).after
  intro _
  exact (gives_readEntries context frame.id field encoding inside []).after fun _ => .pure _

theorem gives_readAttributes (tag : Tag) (atRoot : Bool) (attributes : List (String × String))
    (values : FieldValues) :
    Gives context [] (ofFrame frame) (context.readAttributes frame tag atRoot values attributes) := by
  induction attributes generalizing values with
  | nil => exact .pure values
  | cons pair rest ih =>
      obtain ⟨name, raw⟩ := pair
      simp only [Context.readAttributes]
      split
      · cases found : frame.layout.attributeField? name with
        | none =>
            simp only
            split
            · exact .throw _
            · exact ih values
        | some field =>
            have member : field ∈ frame.layout.fields := List.mem_of_find?_eq_some found
            simp only
            cases field.declared.scalarType? with
            | none => exact ih values
            | some type =>
                apply (Gives.lift _).after
                intro value
                have wider (other : EntityId) (name : String) (isOwn : ofField frame.id field other name) :
                    ofFrame frame other name :=
                  ⟨field, member, isOwn⟩
                exact ((Gives.recordField frame.id field _).weaken wider).after fun _ => ih _
      · exact ih values

theorem gives_readContentField (values : FieldValues) (field : TaggedField) (tag : Tag)
    (inside : Content) :
    Gives context [] (ofField frame.id field)
      (context.readContentField frame values field tag inside) := by
  unfold Context.readContentField
  cases field.declared.scalarType? with
  | none => exact (Gives.lift _).after fun _ => .pure _
  | some type =>
      apply (Gives.lift _).after
      intro value
      exact (Gives.recordField frame.id field _).after fun _ => .pure _

end Parts

/-! ### Entities and their children -/

theorem beginEntity_eq_ok {context : Context} {className : String} {tag : Tag} {atRoot : Bool}
    {session session' : Session} {frame : Frame} {values : FieldValues}
    (begins : context.beginEntity className tag atRoot session = .ok ((frame, values), session')) :
    ∃ resolved, context.schema.find? className = some resolved ∧
      resolved.declared.isAbstract = false ∧
      frame = ⟨⟨session.nextId⟩, resolved.layout, context.locate tag.position⟩ ∧
      context.requireAttributes frame tag = .ok () ∧
      ∃ defaults, defaultValues resolved.layout frame.location = .ok defaults ∧
        context.readAttributes frame tag atRoot defaults tag.attributes ⟨session.nextId + 1,
          session.locations.setEntity ⟨session.nextId⟩ (context.locate tag.position)⟩ =
            .ok (values, session') := by
  unfold Context.beginEntity at begins
  cases found : context.schema.find? className with
  | none =>
      rw [found] at begins
      cases begins
  | some resolved =>
      rw [found] at begins
      simp only at begins
      split at begins
      · cases begins
      · rename_i concrete
        obtain ⟨id, middle, newEq, begins⟩ := Read.bind_eq_ok begins
        cases newEq
        obtain ⟨defaults, defaultsEq, begins⟩ := Read.lift_bind_eq_ok begins
        obtain ⟨_, _, attributesEq, begins⟩ := Read.bind_eq_ok begins
        obtain ⟨_, requiredEq, ends⟩ := Read.lift_bind_eq_ok begins
        cases ends
        exact ⟨resolved, rfl, Bool.eq_false_iff.2 concrete, rfl, requiredEq, defaults, defaultsEq,
          attributesEq⟩

theorem beginEntity_layout? {context : Context} {className : String} {tag : Tag} {atRoot : Bool}
    {session session' : Session} {frame : Frame} {values : FieldValues}
    (begins : context.beginEntity className tag atRoot session = .ok ((frame, values), session')) :
    context.schema.layout? className = some frame.layout := by
  obtain ⟨resolved, found, _, rfl, _⟩ := beginEntity_eq_ok begins
  rw [Schema.layout?, found]
  rfl

theorem entity_eq_ok {context : Context} {className : String} {tag : Tag} {inside : Content}
    {atRoot : Bool} {children : ChildReader} {session session' : Session} {entity : Entity}
    (runs : context.entity className tag inside atRoot children session = .ok (entity, session')) :
    ∃ frame values begun values',
      context.beginEntity className tag atRoot session = .ok ((frame, values), begun) ∧
      (match frame.layout.contentField? with
        | some field => context.readContentField frame values field tag inside
        | none => children frame values) begun = .ok (values', session') ∧
      entity = .mk frame.id className values' := by
  obtain ⟨⟨frame, values⟩, begun, begins, goesOn⟩ := Read.bind_eq_ok runs
  refine ⟨frame, values, begun, ?_⟩
  simp only at goesOn
  cases contentEq : frame.layout.contentField? with
  | some field =>
      simp only [contentEq] at goesOn
      obtain ⟨values', _, contentRun, ends⟩ := Read.bind_eq_ok goesOn
      cases ends
      exact ⟨values', begins, contentRun, rfl⟩
  | none =>
      simp only [contentEq] at goesOn
      obtain ⟨values', _, childrenRun, ends⟩ := Read.bind_eq_ok goesOn
      cases ends
      exact ⟨values', begins, childrenRun, rfl⟩

def ChildrenGive (context : Context) (starts : Layout → List Start) (children : ChildReader) : Prop :=
  ∀ frame values, Gives context (starts frame.layout) (ofElements frame) (children frame values)

section Readers

variable {context : Context} {inside : Content} {children : ChildReader} {items : ItemsReader}

private theorem gives_entity
    (below : ChildrenGive context (fun layout => startsIn context.schema (some (.entity layout)) inside)
      children) (className : String) (tag : Tag) (atRoot : Bool) :
    Gives context (Start.all context.schema ⟨className, tag, inside⟩) nowhere
      (context.entity className tag inside atRoot children) := by
  intro session entity session' runs
  obtain ⟨frame, values, begun, values', begins, goesOn, _⟩ := entity_eq_ok runs
  have layoutEq := beginEntity_layout? begins
  obtain ⟨resolved, _, _, rfl, _, defaults, _, attributes⟩ := beginEntity_eq_ok begins
  have first := gives_readAttributes context _ tag atRoot tag.attributes defaults _ _ _ attributes
  have rest : Advances context (startsIn context.schema (entityRole? context.schema className) inside)
      (ofEntity ⟨session.nextId⟩) begun session' := by
    unfold entityRole?
    rw [layoutEq]
    cases contentEq : resolved.layout.contentField? with
    | some field =>
        simp only [contentEq] at goesOn ⊢
        rw [Option.isNone_some, if_neg Bool.false_ne_true, startsIn_none]
        have content := gives_readContentField context ⟨⟨session.nextId⟩, resolved.layout,
          context.locate tag.position⟩ values field tag inside
        exact (content _ _ _ goesOn).weaken fun _ _ isOwn => isOwn.1
    | none =>
        simp only [contentEq] at goesOn ⊢
        have inner := below ⟨⟨session.nextId⟩, _, _⟩ values _ _ _ goesOn
        refine inner.weaken ?_
        rintro _ _ ⟨_, _, _, isOwn⟩
        exact isOwn.1
  refine Advances.entity ⟨className, tag, inside⟩ rfl ((first.weaken ?_).trans rest)
  rintro _ _ ⟨_, _, isOwn⟩
  exact isOwn.1

theorem gives_item (below : ChildrenGive context
      (fun layout => startsIn context.schema (some (.entity layout)) inside) children)
    (field : TaggedField) (type : ItemType) (tag : Tag) :
    Gives context (itemStarts context.schema type tag inside) nowhere
      (context.item field type tag inside children) := by
  cases type with
  | entity target => exact (gives_entity below target tag false).map _
  | scalar type =>
      simp only [itemStarts, itemRole?, startsIn_none]
      exact .lift _

theorem ofItems.ofOwnField {id : EntityId} {field : TaggedField} {collection : Collection}
    {type : ItemType} {wrapped : Bool} (kindEq : field.declared.kind = .many collection type wrapped)
    {other : EntityId} {name : String} (isOwn : ofItems id field type other name) :
    ofOwnField id field other name := by
  obtain ⟨recorded, isOwn⟩ := isOwn
  refine ⟨?_, isOwn⟩
  rw [Schema.Field.target?, kindEq]
  cases type with
  | entity target => cases recorded
  | scalar type => rfl

private theorem gives_field (below : ChildrenGive context
      (fun layout => startsIn context.schema (some (.entity layout)) inside) children)
    (frame : Frame) (values : FieldValues) (field : TaggedField) (tag : Tag)
    (itemsGive : ∀ collection type, Gives context
      (startsIn context.schema (some (.items field.itemTag type)) inside)
      (ofItems frame.id field type) (items collection type)) :
    Gives context (fieldStarts context.schema field tag inside) (ofOwnField frame.id field)
      (context.field frame values field tag inside children items) := by
  unfold Context.field fieldStarts fieldClass? fieldRole?
  cases kindEq : field.declared.kind with
  | scalar type =>
      simp only [startsIn_none]
      have wider (other : EntityId) (name : String) (isOwn : ofField frame.id field other name) :
          ofOwnField frame.id field other name := by
        refine ⟨?_, isOwn⟩
        rw [Schema.Field.target?, kindEq]
      apply (Gives.lift _).after
      intro value
      exact ((Gives.recordField frame.id field _).weaken wider).after fun _ => .pure _
  | one target =>
      have entity := (gives_entity below target tag false).among (ofOwnField frame.id field)
      exact entity.before fun _ => .pure _
  | many collection type wrapped =>
      cases wrapped with
      | true =>
          have record := gives_recordCollection context frame.id field type (context.locate tag.position)
          apply (record.weaken fun _ _ isOwn => isOwn.ofOwnField kindEq).after
          intro _
          have items := (itemsGive collection type).weaken fun _ _ isOwn => isOwn.ofOwnField kindEq
          exact items.before fun _ => .pure _
      | false =>
          have item := (gives_item below field type tag).among (ofOwnField frame.id field)
          apply item.before
          intro value
          exact (gives_keepItem context frame values field collection type tag value).weaken
            fun _ _ isOwn => isOwn.ofOwnField kindEq
  | map encoding =>
      simp only [startsIn_map context.schema (.inr ⟨encoding, field.itemTag, rfl⟩)]
      refine (gives_readMap context frame values field encoding tag inside).weaken ?_
      intro other name isOwn
      refine ⟨?_, isOwn⟩
      rw [Schema.Field.target?, kindEq]

end Readers

structure ContentGives (context : Context) (content : Content) : Prop where
  children : ∀ frame values seen,
    Gives context (startsIn context.schema (some (.entity frame.layout)) content) (ofElements frame)
      (context.readChildren frame values seen content)
  items : ∀ id field collection type holder,
    Gives context (startsIn context.schema (some (.items field.itemTag type)) content)
      (ofItems id field type) (context.readItems id field collection type holder content)

private theorem contentGives (context : Context) (content : Content) :
    ContentGives context content := by
  -- Both loops at once: what is in a child is read by the one or the other.
  induction content with
  | closed encoding => exact ⟨fun _ values _ => .pure values, fun _ _ _ _ holder => .pure holder⟩
  | broken ending => exact ⟨fun _ _ _ => .throw _, fun _ _ _ _ _ => .throw _⟩
  | text position text rest ih =>
      constructor
      · intro frame values seen
        exact (Gives.lift _).after fun _ => ih.children frame values seen
      · intro id field collection type holder
        exact (Gives.lift _).after fun _ => ih.items id field collection type holder
  | element tag inside rest ihInside ihRest =>
      have below : ChildrenGive context
          (fun layout => startsIn context.schema (some (.entity layout)) inside)
          (context.childrenIn inside) :=
        fun inner values => ihInside.children inner values []
      constructor
      · intro frame values seen
        simp only [Context.readChildren, startsIn, Option.bind_some, Role.childClass?, Role.child?]
        cases routeEq : frame.layout.elementField? tag.name with
        | none =>
            simp only [Option.bind_none, startsIn_none]
            exact (Gives.lift _).after fun _ => ihRest.children frame values seen
        | some field =>
            have isElement : field ∈ frame.layout.elementFields := List.mem_of_find?_eq_some routeEq
            apply (Gives.lift _).after
            intro seen
            have step := gives_field below frame values field tag fun collection type =>
              ihInside.items frame.id field collection type (.collection collection [])
            exact (step.weaken fun _ _ isOwn => ⟨field, isElement, isOwn⟩).bind fun values =>
              ihRest.children frame values seen
      · intro id field collection type holder
        simp only [Context.readItems, startsIn, Option.bind_some, Role.child?]
        have rest holder := ihRest.items id field collection type holder
        split
        · rename_i same
          have item := (gives_item below field type tag).among (ofItems id field type)
          simp only [Role.childClass?, if_pos same]
          apply item.bind
          intro value
          exact (gives_addItem context id field collection type tag holder value).after rest
        · rename_i other
          simp only [Role.childClass?, if_neg other, startsIn_none]
          exact (Gives.lift _).after fun _ => rest holder

theorem childrenGive (context : Context) (inside : Content) :
    ChildrenGive context (fun layout => startsIn context.schema (some (.entity layout)) inside)
      (context.childrenIn inside) :=
  fun frame values => (contentGives context inside).children frame values []

theorem gives_readField (context : Context) (frame : Frame) (values : FieldValues)
    (field : TaggedField) (tag : Tag) (inside : Content) :
    Gives context (fieldStarts context.schema field tag inside) (ofOwnField frame.id field)
      (context.readField frame values field tag inside) :=
  gives_field (childrenGive context inside) frame values field tag fun collection type =>
    (contentGives context inside).items frame.id field collection type (.collection collection [])

theorem gives_readEntity (context : Context) (className : String) (tag : Tag) (inside : Content)
    (atRoot : Bool) :
    Gives context (Start.all context.schema ⟨className, tag, inside⟩) nowhere
      (context.readEntity className tag inside atRoot) :=
  gives_entity (childrenGive context inside) className tag atRoot

end Trellis.Reading
