import Trellis.Proofs.Graph.Entities
import Trellis.Proofs.Reading.Soundness
import Trellis.Proofs.Reading.Starts

/-!
The identities in a graph.

An entity takes the next identity at its start tag, and those inside it take later ones, so the
entities of a graph are numbered in the order of their start tags.  Entities that a set leaves out
have had their numbers all the same.
-/

namespace Trellis.Reading

open Trellis.Graph (Entity Value entitiesUnder_set)
open Markup (Content Document Tag)
open Schema (Collection ItemType Layout MapEncoding ScalarType TaggedField)

/-! ### Entities with numbers -/

/-- The entity is what the element has been read as, in a session that has it as the next one, and
nothing more has been recorded for its fields since. -/
def ReadFrom (context : Context) (start : Start) (session : Session) (entity : Entity) : Prop :=
  ∃ before after, before.nextId = entity.id.value ∧ before.Fresh ∧
    context.readEntity start.className start.tag start.inside (entity.id.value == 0) before =
      .ok (entity, after) ∧
    after.nextId ≤ session.nextId ∧ ∀ field, SameRecords entity.id field after session

structure Settled (context : Context) (known : Start → Nat → Prop) (session : Session)
    (entity : Entity) : Prop where
  nested : ∀ inner ∈ entity.inside, entity.id.value < inner.id.value
  rising : ∀ entry ∈ entity.fields, entry.2.Rising
  read : ∃ start, known start entity.id.value ∧ ReadFrom context start session entity

/-- Entities with numbers of their own, from `first` on. -/
structure Numbered (context : Context) (known : Start → Nat → Prop) (first : Nat) (session : Session)
    (entities : List Entity) : Prop where
  nodup : (entities.map (·.id.value)).Nodup
  bounds : ∀ entity ∈ entities, first ≤ entity.id.value ∧ entity.id.value < session.nextId
  settled : ∀ entity ∈ entities, Settled context known session entity

variable {context : Context} {known : Start → Nat → Prop}

def Owned.Below (own : Owned) (bound : Nat) : Prop :=
  ∀ id field, own id field → id.value < bound

theorem Advances.fresh {starts : List Start} {own : Owned} {session session' : Session}
    (advances : Advances context starts own session session') (below : own.Below session.nextId)
    (fresh : session.Fresh) : session'.Fresh := by
  intro id later field
  have le := advances.le
  have other : ¬ own id field := by
    intro isOwn
    have earlier := below id field isOwn
    omega
  exact (advances.elsewhere id field other (.inr later)).noRecords
    (fresh id (Nat.le_trans le later) field)

namespace Numbered

variable {first : Nat} {session session' : Session} {entities added : List Entity}

theorem nil (first : Nat) (session : Session) : Numbered context known first session [] :=
  ⟨List.nodup_nil, nofun, nofun⟩

theorem subperm (numbered : Numbered context known first session entities)
    (among : List.Subperm added entities) : Numbered context known first session added := by
  refine ⟨?_, fun entity member => numbered.bounds entity (among.subset member),
    fun entity member => numbered.settled entity (among.subset member)⟩
  obtain ⟨kept, perm, sublist⟩ := among
  exact (perm.map _).nodup_iff.1 ((sublist.map _).nodup numbered.nodup)

theorem later (numbered : Numbered context known first session entities) {starts : List Start}
    {own : Owned} (advances : Advances context starts own session session')
    (below : own.Below first) : Numbered context known first session' entities := by
  have le := advances.le
  refine ⟨numbered.nodup, ?_, ?_⟩
  · intro entity member
    have bounds := numbered.bounds entity member
    omega
  · intro entity member
    have bounds := numbered.bounds entity member
    have settled := numbered.settled entity member
    obtain ⟨start, isKnown, before, after, nextEq, fresh, readEq, afterLe, same⟩ := settled.read
    have other (field : String) : ¬ own entity.id field := by
      intro isOwn
      have earlier := below _ field isOwn
      omega
    exact ⟨settled.nested, settled.rising, start, isKnown, before, after, nextEq, fresh, readEq,
      Nat.le_trans afterLe le, fun field =>
        (same field).trans (advances.elsewhere _ field (other field) (.inl bounds.2))⟩

theorem append {middle : Nat} (numbered : Numbered context known first session entities)
    (before : ∀ entity ∈ entities, entity.id.value < middle) (le : first ≤ middle)
    (later : Numbered context known middle session added) :
    Numbered context known first session (entities ++ added) := by
  refine ⟨?_, ?_, ?_⟩
  · rw [List.map_append]
    refine List.Nodup.append numbered.nodup later.nodup ?_
    intro number earlierMember laterMember
    obtain ⟨entity, member, rfl⟩ := List.mem_map.1 earlierMember
    obtain ⟨other, otherMember, same⟩ := List.mem_map.1 laterMember
    have earlier := before entity member
    have bounds := later.bounds other otherMember
    omega
  · intro entity member
    rcases List.mem_append.1 member with member | member
    · exact numbered.bounds entity member
    · have bounds := later.bounds entity member
      omega
  · intro entity member
    exact (List.mem_append.1 member).elim (numbered.settled entity) (later.settled entity)

end Numbered

/-! ### Values with numbers -/

/-- A value with entities that have numbers of their own, those of a list or set in order. -/
structure ValueNumbered (context : Context) (known : Start → Nat → Prop) (first : Nat)
    (session : Session) (value : Value) : Prop where
  entities : Numbered context known first session value.entities
  rising : value.Rising

structure FieldsNumbered (context : Context) (known : Start → Nat → Prop) (first : Nat)
    (session : Session) (values : FieldValues) : Prop where
  entities : Numbered context known first session (Value.entitiesUnder values)
  rising : ∀ entry ∈ values, entry.2.Rising

theorem ValueNumbered.of_hasType {type : ScalarType} {value : Value} (typed : value.HasType type)
    (first : Nat) (session : Session) : ValueNumbered context known first session value := by
  refine ⟨?_, Value.Rising.of_hasType typed⟩
  rw [Value.entities_of_hasType typed]
  exact .nil first session

section Values

variable {first : Nat} {session session' : Session} {values : FieldValues} {value holder : Value}

theorem ValueNumbered.later (numbered : ValueNumbered context known first session value)
    {starts : List Start} {own : Owned} (advances : Advances context starts own session session')
    (below : own.Below first) : ValueNumbered context known first session' value :=
  ⟨numbered.entities.later advances below, numbered.rising⟩

theorem FieldsNumbered.later (numbered : FieldsNumbered context known first session values)
    {starts : List Start} {own : Owned} (advances : Advances context starts own session session')
    (below : own.Below first) : FieldsNumbered context known first session' values :=
  ⟨numbered.entities.later advances below, numbered.rising⟩

theorem FieldsNumbered.set {name : String} {middle : Nat} {added : List Entity}
    (numbered : FieldsNumbered context known first session values)
    (before : ∀ entity ∈ Value.entitiesUnder values, entity.id.value < middle) (le : first ≤ middle)
    (later : Numbered context known middle session added) (rising : value.Rising)
    (among : List.Subperm value.entities ((values.get? name).elim [] Value.entities ++ added)) :
    FieldsNumbered context known first session (values.set name value) := by
  refine ⟨(numbered.entities.append before le later).subperm (entitiesUnder_set among), ?_⟩
  intro entry member
  obtain ⟨key, bound⟩ := entry
  rcases OrderedMap.mem_set member with ⟨_, rfl⟩ | known
  · exact rising
  · exact numbered.rising _ known

theorem FieldsNumbered.set_new {name : String} {middle : Nat}
    (numbered : FieldsNumbered context known first session values)
    (before : ∀ entity ∈ Value.entitiesUnder values, entity.id.value < middle) (le : first ≤ middle)
    (later : ValueNumbered context known middle session value) :
    FieldsNumbered context known first session (values.set name value) :=
  numbered.set before le later.entities later.rising (List.sublist_append_right _ _).subperm

theorem FieldsNumbered.set_scalar {name : String} {type : ScalarType}
    (numbered : FieldsNumbered context known first session values) (typed : value.HasType type) :
    FieldsNumbered context known first session (values.set name value) := by
  have before (entity : Entity) (member : entity ∈ Value.entitiesUnder values) :
      entity.id.value < max first session.nextId := by
    have bounds := numbered.entities.bounds entity member
    omega
  exact numbered.set_new before (Nat.le_max_left _ _) (.of_hasType typed _ _)

end Values

/-! ### Runs -/

def AllKnown (known : Start → Nat → Prop) (starts : List Start) (first : Nat) : Prop :=
  ∀ entry ∈ starts.zipIdx first, known entry.1 entry.2

theorem AllKnown.of_append {starts later : List Start} {first : Nat}
    (isKnown : AllKnown known (starts ++ later) first) :
    AllKnown known starts first ∧ AllKnown known later (first + starts.length) := by
  unfold AllKnown at isKnown
  rw [List.zipIdx_append] at isKnown
  exact ⟨fun entry member => isKnown entry (List.mem_append_left _ member),
    fun entry member => isKnown entry (List.mem_append_right _ member)⟩

theorem AllKnown.of_cons {start : Start} {starts : List Start} {first : Nat}
    (isKnown : AllKnown known (start :: starts) first) :
    known start first ∧ AllKnown known starts (first + 1) :=
  ⟨isKnown (start, first) List.mem_cons_self,
    fun entry member => isKnown entry (List.mem_cons_of_mem _ member)⟩

structure Session.Open (session : Session) (id : EntityId) : Prop where
  fresh : session.Fresh
  begun : id.value < session.nextId

def Owned.Of (own : Owned) (id : EntityId) : Prop :=
  ∀ other field, own other field → other = id

theorem Owned.Of.below {own : Owned} {id : EntityId} {bound : Nat} (of : own.Of id)
    (less : id.value < bound) : own.Below bound := by
  intro other field isOwn
  rw [of other field isOwn]
  exact less

theorem ofFrame_of (frame : Frame) : (ofFrame frame).Of frame.id := by
  rintro _ _ ⟨_, _, isOwn⟩
  exact isOwn.1

private theorem ofItems_of (id : EntityId) (field : TaggedField) (type : ItemType) :
    (ofItems id field type).Of id :=
  fun _ _ isOwn => isOwn.2.1

theorem ofOwnField_of (id : EntityId) (field : TaggedField) : (ofOwnField id field).Of id :=
  fun _ _ isOwn => isOwn.2.1

private theorem nowhere_of (id : EntityId) : nowhere.Of id :=
  fun _ _ none => none.elim

theorem Session.Open.later {session session' : Session} {id : EntityId} {starts : List Start}
    {own : Owned} (isOpen : session.Open id)
    (advances : Advances context starts own session session') (of : own.Of id) :
    session'.Open id where
  fresh := advances.fresh (of.below isOpen.begun) isOpen.fresh
  begun := Nat.lt_of_lt_of_le isOpen.begun advances.le

theorem Session.Fresh.begin {session : Session} (fresh : session.Fresh) (location : Location) :
    Session.Open ⟨session.nextId + 1, session.locations.setEntity ⟨session.nextId⟩ location⟩
      ⟨session.nextId⟩ where
  fresh id later field := by
    have none := fresh id (by simp only at later; omega) field
    exact ⟨none.place, none.entries⟩
  begun := Nat.lt_succ_self _

/-- Children in this content, whatever entity they belong to, keep its fields numbered. -/
def ChildrenNumbered (context : Context) (known : Start → Nat → Prop) (content : Content)
    (children : ChildReader) : Prop :=
  ∀ frame values session values' session', children frame values session = .ok (values', session') →
    session.Open frame.id →
    AllKnown known (startsIn context.schema (some (.entity frame.layout)) content) session.nextId →
    FieldsNumbered context known (frame.id.value + 1) session values →
    FieldsNumbered context known (frame.id.value + 1) session' values'

section Entities

variable {session session' : Session}

def AllScalars (values : FieldValues) : Prop :=
  ∀ entry ∈ values, ∃ type, entry.2.HasType type

theorem AllScalars.set {values : FieldValues} {name : String} {value : Value} {type : ScalarType}
    (scalars : AllScalars values) (typed : value.HasType type) : AllScalars (values.set name value) := by
  intro entry member
  obtain ⟨key, bound⟩ := entry
  rcases OrderedMap.mem_set member with ⟨_, rfl⟩ | known
  · exact ⟨type, typed⟩
  · exact scalars _ known

theorem AllScalars.fieldsNumbered {values : FieldValues} (scalars : AllScalars values) (first : Nat)
    (session : Session) : FieldsNumbered context known first session values := by
  have noEntities : Value.entitiesUnder values = [] := by
    rw [Value.entitiesUnder_eq, List.flatMap_eq_nil_iff]
    intro entry member
    obtain ⟨type, typed⟩ := scalars entry member
    exact Value.entities_of_hasType typed
  refine ⟨?_, ?_⟩
  · rw [noEntities]
    exact .nil first session
  · intro entry member
    obtain ⟨type, typed⟩ := scalars entry member
    exact Value.Rising.of_hasType typed

private theorem defaultValues_allScalars {layout : Layout} {location : Location} {values : FieldValues}
    (read : defaultValues layout location = .ok values) : AllScalars values :=
  defaultValues_induction nofun
    (fun _ _ _ _ _ _ _ _ coerceEq scalars => scalars.set (coerce_hasType coerceEq)) read

private theorem readAttributes_allScalars (frame : Frame) (tag : Tag) (atRoot : Bool)
    (attributes : List (String × String)) {values : FieldValues} (scalars : AllScalars values) :
    Ensures (context.readAttributes frame tag atRoot values attributes) AllScalars := by
  induction attributes generalizing values with
  | nil => exact .pure scalars
  | cons pair rest ih =>
      obtain ⟨name, raw⟩ := pair
      simp only [Context.readAttributes]
      split
      · split
        · split
          · exact .throw
          · exact ih scalars
        · split
          · exact ih scalars
          · refine (Ensures.lift fun _ read => coerce_hasType read).bind ?_
            intro value typed
            exact Ensures.after (ih (scalars.set typed))
      · exact ih scalars

theorem readContentField_allScalars {frame : Frame} {values : FieldValues} {field : TaggedField}
    {tag : Tag} {inside : Content} (scalars : AllScalars values) :
    Ensures (context.readContentField frame values field tag inside) AllScalars := by
  unfold Context.readContentField
  split
  · exact Ensures.after (.pure scalars)
  · refine (Ensures.lift fun _ read => scalar_hasType read).bind ?_
    intro value typed
    exact Ensures.after (.pure (scalars.set typed))

theorem beginEntity_allScalars {className : String} {tag : Tag} {atRoot : Bool} {frame : Frame}
    {values : FieldValues}
    (begins : context.beginEntity className tag atRoot session = .ok ((frame, values), session')) :
    AllScalars values := by
  obtain ⟨_, _, _, _, _, defaults, defaultsEq, attributesEq⟩ := beginEntity_eq_ok begins
  exact readAttributes_allScalars frame tag atRoot tag.attributes (defaultValues_allScalars defaultsEq)
    _ _ _ attributesEq

theorem beginEntity_open {className : String} {tag : Tag} {atRoot : Bool} {frame : Frame}
    {values : FieldValues}
    (begins : context.beginEntity className tag atRoot session = .ok ((frame, values), session'))
    (fresh : session.Fresh) : session'.Open frame.id := by
  obtain ⟨_, _, _, rfl, _, defaults, _, attributesEq⟩ := beginEntity_eq_ok begins
  have advances := gives_readAttributes context _ tag atRoot tag.attributes defaults _ _ _ attributesEq
  exact (fresh.begin (context.locate tag.position)).later advances (ofFrame_of _)

/-- The entity with the next identity, and those inside it with later ones. -/
theorem Numbered.entity {start : Start} {entity : Entity} {values : FieldValues}
    {className : String} (isKnown : known start session.nextId)
    (entityEq : entity = .mk ⟨session.nextId⟩ className values) (fresh : session.Fresh)
    (readEq : context.readEntity start.className start.tag start.inside (session.nextId == 0) session =
      .ok (entity, session'))
    (less : session.nextId < session'.nextId)
    (fields : FieldsNumbered context known (session.nextId + 1) session' values) :
    Numbered context known session.nextId session' entity.all := by
  have insideEq : entity.inside = Value.entitiesUnder values := by
    rw [entityEq]
    rfl
  have idEq : entity.id.value = session.nextId := by
    rw [entityEq]
    rfl
  have later (inner : Entity) (member : inner ∈ entity.inside) :
      session.nextId < inner.id.value ∧ inner.id.value < session'.nextId := by
    rw [insideEq] at member
    exact fields.entities.bounds inner member
  refine ⟨?_, ?_, ?_⟩
  · rw [Entity.all, List.map_cons, List.nodup_cons, insideEq]
    refine ⟨?_, fields.entities.nodup⟩
    intro twice
    obtain ⟨inner, member, same⟩ := List.mem_map.1 twice
    rw [← insideEq] at member
    have bounds := later inner member
    omega
  · intro other member
    rcases List.mem_cons.1 member with rfl | within
    · omega
    · have bounds := later other within
      omega
  · intro other member
    rcases List.mem_cons.1 member with rfl | within
    · refine ⟨?_, ?_, start, ?_, session, session', idEq.symm, fresh, ?_, Nat.le_refl _,
        fun _ => .refl _ _ _⟩
      · intro inner member
        have bounds := later inner member
        omega
      · rw [entityEq]
        exact fields.rising
      · rw [idEq]
        exact isKnown
      · rw [idEq]
        exact readEq
    · rw [insideEq] at within
      exact fields.entities.settled other within

private theorem entity_numbered {inside : Content}
    (below : ChildrenNumbered context known inside (context.childrenIn inside)) {className : String}
    {tag : Tag} {entity : Entity}
    (runs : context.readEntity className tag inside (session.nextId == 0) session =
      .ok (entity, session'))
    (fresh : session.Fresh)
    (isKnown : AllKnown known (Start.all context.schema ⟨className, tag, inside⟩) session.nextId) :
    Numbered context known session.nextId session' entity.all := by
  have given := gives_readEntity context className tag inside (session.nextId == 0) session entity
    session' runs
  have less : session.nextId < session'.nextId := by
    rw [given.nextId_eq, Start.all, List.length_cons]
    omega
  obtain ⟨knownHere, knownInside⟩ := isKnown.of_cons
  obtain ⟨frame, values, begun, values', begins, goesOn, entityEq⟩ := entity_eq_ok runs
  have layoutEq := beginEntity_layout? begins
  have scalars := beginEntity_allScalars begins
  have isOpen := beginEntity_open begins fresh
  obtain ⟨resolved, _, _, rfl, _, defaults, defaultsEq, attributesEq⟩ := beginEntity_eq_ok begins
  have attributes := gives_readAttributes context _ tag _ tag.attributes defaults _ _ _ attributesEq
  cases contentEq : resolved.layout.contentField? with
  | some field =>
      simp only [contentEq] at goesOn
      have content := readContentField_allScalars scalars begun values' session' goesOn
      exact .entity knownHere entityEq fresh runs less (content.fieldsNumbered _ _)
  | none =>
      simp only [contentEq] at goesOn
      have roleEq : entityRole? context.schema className = some (.entity resolved.layout) :=
        entityRole?_eq_some_iff.2 ⟨resolved.layout, layoutEq, contentEq, rfl⟩
      rw [roleEq] at knownInside
      refine .entity knownHere entityEq fresh runs less
        (below _ values begun values' session' goesOn isOpen ?_ (scalars.fieldsNumbered _ _))
      rw [attributes.nextId_eq]
      exact knownInside

private theorem item_numbered {inside : Content}
    (below : ChildrenNumbered context known inside (context.childrenIn inside)) {field : TaggedField}
    {type : ItemType} {tag : Tag} {value : Value}
    (runs : context.item field type tag inside (context.childrenIn inside) session =
      .ok (value, session'))
    (fresh : session.Fresh) (positive : 0 < session.nextId)
    (isKnown : AllKnown known (itemStarts context.schema type tag inside) session.nextId) :
    ValueNumbered context known session.nextId session' value := by
  cases type with
  | entity target =>
      -- An entity is read as the root exactly if it gets the first number of all.
      have notRoot : (session.nextId == 0) = false :=
        beq_eq_false_iff_ne.2 (Nat.pos_iff_ne_zero.1 positive)
      simp only [Context.item, ← bind_pure_comp] at runs
      obtain ⟨entity, after, entityRun, ends⟩ := Read.bind_eq_ok runs
      cases ends
      rw [← notRoot] at entityRun
      exact ⟨entity_numbered below entityRun fresh isKnown, trivial⟩
  | scalar type =>
      obtain ⟨scalarEq, _⟩ := Read.lift_eq_ok runs
      exact .of_hasType (scalar_hasType scalarEq) _ _

end Entities

/-! ### Lists, sets and fields -/

section Fields

variable {session session' : Session}

theorem addItem_eq_ok {id : EntityId} {field : TaggedField} {collection : Collection}
    {type : ItemType} {tag : Tag} {holder value holder' : Value}
    (runs : context.addItem id field collection type tag holder value session =
      .ok (holder', session')) : holder' = (holder.push value).1 := by
  unfold Context.addItem at runs
  generalize holder.push value = result at runs ⊢
  obtain ⟨pushed, added⟩ := result
  cases added with
  | none =>
      cases runs
      rfl
  | some position =>
      simp only at runs
      split at runs
      · obtain ⟨_, _, _, ends⟩ := Read.bind_eq_ok runs
        cases ends
        rfl
      · cases runs
        rfl

private theorem entities_of_get? {values : FieldValues} {name : String} {value : Value}
    (found : values.get? name = some value) : value.entities ⊆ Value.entitiesUnder values := by
  intro entity member
  rw [Value.entitiesUnder_eq]
  exact List.mem_flatMap.2 ⟨(name, value), OrderedMap.mem_of_get? found, member⟩

private theorem subperm_push (holder value : Value) :
    List.Subperm (holder.push value).1.entities (holder.entities ++ value.entities) := by
  rcases Value.entities_push holder value with same | added
  · rw [same]
    exact (List.sublist_append_left _ _).subperm
  · rw [added]

theorem ValueNumbered.push {first middle : Nat} {holder value : Value}
    (numbered : ValueNumbered context known first session holder)
    (before : ∀ entity ∈ holder.entities, entity.id.value < middle) (le : first ≤ middle)
    (item : ValueNumbered context known middle session value) :
    ValueNumbered context known first session (holder.push value).1 where
  entities := (numbered.entities.append before le item.entities).subperm (subperm_push holder value)
  rising := numbered.rising.push before fun entity member => (item.entities.bounds entity member).1

theorem FieldsNumbered.push {first middle : Nat} {values : FieldValues} {name : String}
    {collection : Collection} {value : Value}
    (numbered : FieldsNumbered context known first session values)
    (before : ∀ entity ∈ Value.entitiesUnder values, entity.id.value < middle) (le : first ≤ middle)
    (item : ValueNumbered context known middle session value) :
    FieldsNumbered context known first session
      (values.set name (((values.get? name).getD (.collection collection [])).push value).1) := by
  have later (entity : Entity) (member : entity ∈ value.entities) : middle ≤ entity.id.value :=
    (item.entities.bounds entity member).1
  cases found : values.get? name with
  | none =>
      refine numbered.set before le item.entities ?_ ?_
      · have rising : (Value.collection collection []).Rising := List.Pairwise.nil
        exact rising.push (fun entity member => nomatch member) later
      · rw [found]
        exact subperm_push _ _
  | some holder =>
      have within := entities_of_get? found
      refine numbered.set before le item.entities ?_ ?_
      · have rising := numbered.rising _ (OrderedMap.mem_of_get? found)
        exact rising.push (fun entity member => before entity (within member)) later
      · rw [found]
        exact subperm_push _ _

def ItemsNumbered (context : Context) (known : Start → Nat → Prop) (content : Content) : Prop :=
  ∀ id field collection type holder session value session' first,
    context.readItems id field collection type holder content session = .ok (value, session') →
    session.Open id → id.value < first → first ≤ session.nextId →
    AllKnown known (startsIn context.schema (some (.items field.itemTag type)) content) session.nextId →
    ValueNumbered context known first session holder →
    ValueNumbered context known first session' value

theorem keepItem_eq_ok {frame : Frame} {values values' : FieldValues} {field : TaggedField}
    {collection : Collection} {type : ItemType} {tag : Tag} {value : Value}
    (runs : context.keepItem frame values field collection type tag value session =
      .ok (values', session')) :
    values' = values.set field.name
      (((values.get? field.name).getD (.collection collection [])).push value).1 := by
  obtain ⟨_, _, _, goesOn⟩ := Read.bind_eq_ok runs
  obtain ⟨holder, _, adds, ends⟩ := Read.bind_eq_ok goesOn
  cases ends
  rw [addItem_eq_ok adds]

variable {frame : Frame} {values values' : FieldValues} {field : TaggedField} {tag : Tag}
  {inside : Content}

private theorem unwrapped_numbered
    (below : ChildrenNumbered context known inside (context.childrenIn inside))
    {collection : Collection} {type : ItemType}
    (runs : context.unwrapped frame values field collection type tag inside
      (context.childrenIn inside) session = .ok (values', session'))
    (isOpen : session.Open frame.id)
    (isKnown : AllKnown known (itemStarts context.schema type tag inside) session.nextId)
    (numbered : FieldsNumbered context known (frame.id.value + 1) session values) :
    FieldsNumbered context known (frame.id.value + 1) session' values' := by
  obtain ⟨value, middle, itemRun, keeps⟩ := Read.bind_eq_ok runs
  have begun := isOpen.begun
  have itemAdvances := gives_item (childrenGive context inside) field type tag _ _ _ itemRun
  have keepAdvances := gives_keepItem context frame values field collection type tag value _ _ _ keeps
  have keepOf := ofItems_of frame.id field type
  have item := item_numbered below itemRun isOpen.fresh (by omega) isKnown
  have kept := (numbered.later itemAdvances ((nowhere_of frame.id).below (Nat.lt_succ_self _))).later
    keepAdvances (keepOf.below (Nat.lt_succ_self _))
  rw [keepItem_eq_ok keeps]
  exact kept.push (fun entity member => (numbered.entities.bounds entity member).2) begun
    (item.later keepAdvances (keepOf.below begun))

private theorem readField_numbered
    (below : ChildrenNumbered context known inside (context.childrenIn inside))
    (itemsBelow : ItemsNumbered context known inside)
    (runs : context.readField frame values field tag inside session = .ok (values', session'))
    (isOpen : session.Open frame.id)
    (isKnown : AllKnown known (fieldStarts context.schema field tag inside) session.nextId)
    (numbered : FieldsNumbered context known (frame.id.value + 1) session values) :
    FieldsNumbered context known (frame.id.value + 1) session' values' := by
  have begun := isOpen.begun
  have before (entity : Entity) (member : entity ∈ Value.entitiesUnder values) :
      entity.id.value < session.nextId :=
    (numbered.entities.bounds entity member).2
  have advances := gives_readField context frame values field tag inside _ _ _ runs
  have kept := numbered.later advances ((ofOwnField_of frame.id field).below (Nat.lt_succ_self _))
  unfold Context.readField Context.field at runs
  unfold fieldStarts fieldClass? fieldRole? at isKnown
  cases kindEq : field.declared.kind with
  | scalar type =>
      simp only [kindEq] at runs
      obtain ⟨value, middle, scalarRun, records⟩ := Read.bind_eq_ok runs
      obtain ⟨scalarEq, _⟩ := Read.lift_eq_ok scalarRun
      obtain ⟨_, _, _, ends⟩ := Read.bind_eq_ok records
      cases ends
      exact kept.set_scalar (scalar_hasType scalarEq)
  | one target =>
      simp only [kindEq] at runs isKnown
      obtain ⟨entity, middle, entityRun, ends⟩ := Read.bind_eq_ok runs
      cases ends
      have notRoot : (session.nextId == 0) = false := beq_eq_false_iff_ne.2 (by omega)
      rw [← notRoot] at entityRun
      have inner : ValueNumbered context known session.nextId session' (.entity entity) :=
        ⟨entity_numbered below entityRun isOpen.fresh isKnown, trivial⟩
      exact kept.set_new before begun inner
  | many collection type isWrapped =>
      cases isWrapped with
      | true =>
          simp only [kindEq] at runs isKnown
          obtain ⟨_, middle, records, goesOn⟩ := Read.bind_eq_ok runs
          obtain ⟨holder, final, itemsRun, ends⟩ := Read.bind_eq_ok goesOn
          cases ends
          have recordAdvances := gives_recordCollection context frame.id field type _ _ _ _ records
          have nextEq : middle.nextId = session.nextId := recordAdvances.nextId_eq
          rw [← nextEq] at isKnown before begun
          have items := itemsBelow _ _ _ _ _ _ _ _ middle.nextId itemsRun
            (isOpen.later recordAdvances (ofItems_of _ _ _)) begun (Nat.le_refl _) isKnown
            ⟨.nil _ _, List.Pairwise.nil⟩
          exact kept.set_new before begun items
      | false =>
          simp only [kindEq] at runs isKnown
          exact unwrapped_numbered below runs isOpen isKnown numbered
  | map encoding =>
      simp only [kindEq] at runs
      obtain ⟨_, middle, _, goesOn⟩ := Read.bind_eq_ok runs
      obtain ⟨entries, final, _, ends⟩ := Read.bind_eq_ok goesOn
      cases ends
      exact kept.set_new before begun ⟨.nil _ _, trivial⟩

end Fields

structure ContentNumbered (context : Context) (known : Start → Nat → Prop) (content : Content) :
    Prop where
  children : ∀ seen, ChildrenNumbered context known content fun frame values =>
    context.readChildren frame values seen content
  items : ItemsNumbered context known content

section Steps

variable {known : Start → Nat → Prop} {tag : Tag} {inside rest : Content}
  (ihInside : ContentNumbered context known inside) (ihRest : ContentNumbered context known rest)
include ihInside ihRest

private theorem ContentNumbered.childrenStep (seen : List String) :
    ChildrenNumbered context known (.element tag inside rest) fun frame values =>
      context.readChildren frame values seen (.element tag inside rest) := by
  intro frame values session values' session' runs isOpen isKnown numbered
  simp only [startsIn, Option.bind_some, Role.childClass?, Role.child?] at isKnown
  simp only [Context.readChildren] at runs
  cases routeEq : frame.layout.elementField? tag.name with
  | none =>
      simp only [routeEq] at runs isKnown
      simp only [Option.bind_none, startsIn_none] at isKnown
      obtain ⟨_, _, goesOn⟩ := Read.lift_bind_eq_ok runs
      exact ihRest.children seen _ _ _ _ _ goesOn isOpen isKnown numbered
  | some field =>
      simp only [routeEq] at runs isKnown
      obtain ⟨taken, _, goesOn⟩ := Read.lift_bind_eq_ok runs
      obtain ⟨between, middle, fieldRun, goesOn⟩ := Read.bind_eq_ok goesOn
      obtain ⟨knownHere, knownLater⟩ := isKnown.of_append
      have advances := gives_readField context frame values field tag inside _ _ _ fieldRun
      have step := readField_numbered (ihInside.children []) ihInside.items fieldRun isOpen knownHere
        numbered
      refine ihRest.children taken _ _ _ _ _ goesOn
        (isOpen.later advances (ofOwnField_of _ _)) ?_ step
      -- The elements in this child have had their numbers, so those behind it come next.
      rw [advances.nextId_eq]
      exact knownLater

private theorem ContentNumbered.itemsStep :
    ItemsNumbered context known (.element tag inside rest) := by
  intro id field collection type holder session value session' first runs isOpen less le isKnown
    numbered
  simp only [startsIn, Option.bind_some, Role.childClass?, Role.child?] at isKnown
  simp only [Context.readItems] at runs
  split at runs
  · rename_i same
    simp only [if_pos same] at isKnown
    obtain ⟨knownHere, knownLater⟩ := isKnown.of_append
    obtain ⟨item, between, itemRun, goesOn⟩ := Read.bind_eq_ok runs
    obtain ⟨pushed, middle, adds, goesOn⟩ := Read.bind_eq_ok goesOn
    have of := ofItems_of id field type
    have itemAdvances := ((gives_item (childrenGive context inside) field type tag).among
      (ofItems id field type)) _ _ _ itemRun
    have addAdvances := gives_addItem context id field collection type tag holder item _ _ _ adds
    have advances := itemAdvances.trans addAdvances
    have itemNumbered := item_numbered (ihInside.children []) itemRun isOpen.fresh (by omega) knownHere
    have step := (numbered.later advances (of.below less)).push
      (fun entity member => (numbered.entities.bounds entity member).2) le
      (itemNumbered.later addAdvances (of.below isOpen.begun))
    rw [← addItem_eq_ok adds] at step
    refine ihRest.items _ _ _ _ _ _ _ _ first goesOn (isOpen.later advances of) less
      (Nat.le_trans le advances.le) ?_ step
    rw [advances.nextId_eq, List.append_nil]
    exact knownLater
  · rename_i other
    simp only [if_neg other, startsIn_none] at isKnown
    obtain ⟨_, _, goesOn⟩ := Read.lift_bind_eq_ok runs
    exact ihRest.items _ _ _ _ _ _ _ _ first goesOn isOpen less le isKnown numbered

end Steps

private theorem contentNumbered (context : Context) (known : Start → Nat → Prop) (content : Content) :
    ContentNumbered context known content := by
  induction content with
  | closed encoding =>
      constructor
      · intro seen frame values session values' session' runs _ _ numbered
        cases runs
        exact numbered
      · intro id field collection type holder session value session' first runs _ _ _ _ numbered
        cases runs
        exact numbered
  | broken ending =>
      constructor
      · intro seen frame values session values' session' runs
        cases runs
      · intro id field collection type holder session value session' first runs
        cases runs
  | text position text rest ih =>
      constructor
      · intro seen frame values session values' session' runs isOpen isKnown numbered
        obtain ⟨_, _, goesOn⟩ := Read.lift_bind_eq_ok runs
        exact ih.children seen _ _ _ _ _ goesOn isOpen isKnown numbered
      · intro id field collection type holder session value session' first runs
        obtain ⟨_, _, goesOn⟩ := Read.lift_bind_eq_ok runs
        exact ih.items _ _ _ _ _ _ _ _ first goesOn
  | element tag inside rest ihInside ihRest =>
      exact ⟨ihInside.childrenStep ihRest, ihInside.itemsStep ihRest⟩

theorem readEntity_numbered {className : String} {tag : Tag} {inside : Content} {entity : Entity}
    {session session' : Session}
    (runs : context.readEntity className tag inside (session.nextId == 0) session =
      .ok (entity, session'))
    (fresh : session.Fresh)
    (isKnown : AllKnown known (Start.all context.schema ⟨className, tag, inside⟩) session.nextId) :
    Numbered context known session.nextId session' entity.all :=
  entity_numbered ((contentNumbered context known inside).children []) runs fresh isKnown

end Trellis.Reading
