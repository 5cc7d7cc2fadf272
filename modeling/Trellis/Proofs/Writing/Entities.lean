import Trellis.Proofs.Schema.Places
import Trellis.Proofs.Writing.Fields

/-!
Entities that are written and read again.

The start tag gives the defaults and the attributes, the content or the elements give the other
fields.  What has been set so far agrees with the entity on every field that is not left to be read,
and when no field is left the entity read is equal to the one written.
-/

namespace Trellis.Reading

open Trellis.Graph (Entity SameBinding Steps Value writeAttributes)
open Markup (Body Content Tag isName)
open Schema (Field Layout ResolvedClass ScalarType TaggedField)

variable {context : Context} {layout : Layout} {entity : Entity} {values : FieldValues}

/-! ### Defaults -/

def OnlyBoundScalars (layout : Layout) (entity : Entity) (values : FieldValues) : Prop :=
  ∀ name, values.get? name ≠ none → entity.get? name ≠ none ∧
    ∃ field ∈ layout.fields, field.name = name ∧ field.declared.scalarType? ≠ none

theorem OnlyBoundScalars.set (scalars : OnlyBoundScalars layout entity values) {field : TaggedField}
    (member : field ∈ layout.fields) (bound : entity.get? field.name ≠ none)
    (isScalar : field.declared.scalarType? ≠ none) (value : Value) :
    OnlyBoundScalars layout entity (values.set field.name value) := by
  intro name isSet
  by_cases same : field.name = name
  · rw [← same]
    exact ⟨bound, field, member, rfl, isScalar⟩
  · rw [OrderedMap.get?_set_of_ne values value same] at isSet
    exact scalars name isSet

private theorem isExact_of_scalarType? (writable : layout.Writable) {field : TaggedField}
    (member : field ∈ layout.fields) {type : ScalarType}
    (scalar : field.declared.scalarType? = some type) : type.isExact = true := by
  apply writable.exact field member
  rw [kind_of_scalarType? scalar]
  rfl

private theorem ne_none_of_contains {name : String} (contained : entity.contains name = true) :
    entity.get? name ≠ none := by
  intro unbound
  change (entity.get? name).isSome = true at contained
  rw [unbound] at contained
  cases contained

private theorem withDefault_bound (writable : layout.Writable) (ready : entity.Writable layout)
    {field : TaggedField} (member : field ∈ layout.fields) (location : Location)
    (scalars : OnlyBoundScalars layout entity values) :
    ∃ values', withDefault location values field = .ok values' ∧
      OnlyBoundScalars layout entity values' := by
  unfold withDefault
  cases defaultEq : field.declared.default with
  | none => exact ⟨values, rfl, scalars⟩
  | some text =>
      cases typeEq : field.declared.scalarType? with
      | none => exact ⟨values, rfl, scalars⟩
      | some type =>
          have exact := isExact_of_scalarType? writable member typeEq
          have noTree : type ≠ .tree := by
            intro isTree
            rw [isTree] at exact
            cases exact
          obtain ⟨value, coerced⟩ := coerce_lenient field.declared exact text location
          have contained : entity.contains field.name = true := by
            apply ready.defaults field member
            · rw [defaultEq]
              rfl
            · rw [typeEq]
              rfl
          have isScalar : field.declared.scalarType? ≠ none := by
            rw [typeEq]
            exact Option.some_ne_none type
          refine ⟨values.set field.name value, ?_,
            scalars.set member (ne_none_of_contains contained) isScalar value⟩
          simp only [noTree, if_false, coerced]
          rfl

private theorem defaultValues_bound (writable : layout.Writable) (ready : entity.Writable layout)
    (location : Location) :
    ∃ values, defaultValues layout location = .ok values ∧ OnlyBoundScalars layout entity values := by
  have onward (fields : List TaggedField) (members : ∀ field ∈ fields, field ∈ layout.fields)
      (before : FieldValues) (scalars : OnlyBoundScalars layout entity before) :
      ∃ values, fields.foldlM (withDefault location) before = .ok values ∧
        OnlyBoundScalars layout entity values := by
    induction fields generalizing before with
    | nil => exact ⟨before, rfl, scalars⟩
    | cons field rest ih =>
        obtain ⟨member, restMembers⟩ := List.forall_mem_cons.1 members
        obtain ⟨after, step, scalarsAfter⟩ :=
          withDefault_bound writable ready member location scalars
        obtain ⟨values, run, scalarsEnd⟩ := ih restMembers after scalarsAfter
        refine ⟨values, ?_, scalarsEnd⟩
        rw [List.foldlM_cons, step]
        exact run
  have nothingYet : OnlyBoundScalars layout entity [] := by
    intro name isSet
    exact absurd rfl isSet
  exact onward layout.fields (fun _ member => member) [] nothingYet

/-! ### Attributes -/

/-- The attributes of the fields that the entity binds, each with a text that is read as its
value. -/
inductive AttributeRow (entity : Entity) : List TaggedField → List (String × String) → Prop
  | nil : AttributeRow entity [] []
  | unbound {field : TaggedField} {others : List TaggedField} {attributes : List (String × String)}
      (absent : entity.get? field.name = none) (row : AttributeRow entity others attributes) :
      AttributeRow entity (field :: others) attributes
  | bound {field : TaggedField} {others : List TaggedField} {attributes : List (String × String)}
      {value : Value} {text : String} {type : ScalarType} (present : entity.get? field.name = some value)
      (scalar : field.declared.scalarType? = some type) (same : value.equal value = true)
      (reads : ∀ strict location, coerce strict field.declared type text location = .ok value)
      (row : AttributeRow entity others attributes) :
      AttributeRow entity (field :: others) ((field.tag, text) :: attributes)

theorem AttributeRow.sublist {fields : List TaggedField} {attributes : List (String × String)}
    (row : AttributeRow entity fields attributes) :
    (attributes.map Prod.fst).Sublist (fields.map (·.tag)) := by
  induction row with
  | nil => exact List.Sublist.slnil
  | unbound _ _ ih => exact ih.cons _
  | bound _ _ _ _ _ ih => exact ih.cons_cons _

theorem AttributeRow.mem_of_bound {fields : List TaggedField} {attributes : List (String × String)}
    (row : AttributeRow entity fields attributes) {field : TaggedField} (member : field ∈ fields)
    (bound : entity.get? field.name ≠ none) : field.tag ∈ attributes.map Prod.fst := by
  induction row with
  | nil => cases member
  | unbound absent _ ih =>
      rcases List.mem_cons.1 member with rfl | later
      · exact absurd absent bound
      · exact ih later
  | bound _ _ _ _ _ ih =>
      rcases List.mem_cons.1 member with rfl | later
      · exact List.mem_cons_self
      · exact List.mem_cons_of_mem _ (ih later)

/-- The entity belongs to the class and can be written. -/
structure Ready (schema : Schema) (resolved : ResolvedClass) (entity : Entity) : Prop where
  isInstance : entity.IsInstance schema resolved
  writable : entity.Writable resolved.layout

def IsReady (schema : Schema) (entity : Entity) : Prop :=
  ∃ resolved, Ready schema resolved entity

structure Legible (schema : Schema) : Prop where
  writable : ∀ resolved ∈ schema.classes, resolved.layout.Writable
  placed : ∀ resolved ∈ schema.classes, resolved.layout.Placed

variable {schema : Schema} {resolved : ResolvedClass}

theorem Ready.scalar_written (ready : Ready schema resolved entity)
    (writable : resolved.layout.Writable) {field : TaggedField}
    (member : field ∈ resolved.layout.fields) {type : ScalarType}
    (scalar : field.declared.scalarType? = some type) {value : Value}
    (bound : entity.get? field.name = some value) :
    value.equal value = true ∧ ∃ text, value.writtenText? = some text ∧
      ∀ strict location, coerce strict field.declared type text location = .ok value := by
  have exact := isExact_of_scalarType? writable member scalar
  have typed : value.HasType type := by
    have fits := ready.isInstance.fits field member value bound
    rw [kind_of_scalarType? scalar] at fits
    exact fits
  have trimmed : field.declared.trims = true → value.IsTrim := by
    intro trims
    have whole := ready.writable.trimmed field member trims value bound
    cases isExact_of_hasType exact typed <;> exact whole
  exact ⟨equal_self_of_hasType exact typed, coerce_written exact typed trimmed⟩

theorem writeAttributes_row (ready : Ready schema resolved entity)
    (writable : resolved.layout.Writable) (placed : resolved.layout.Placed)
    {fields : List TaggedField}
    (members : ∀ field ∈ fields, field ∈ resolved.layout.attributeFields) :
    ∃ attributes, writeAttributes entity.fields fields = some attributes ∧
      AttributeRow entity fields attributes := by
  induction fields with
  | nil => exact ⟨[], rfl, .nil⟩
  | cons field others ih =>
      obtain ⟨isAttribute, othersMembers⟩ := List.forall_mem_cons.1 members
      obtain ⟨attributes, writesOthers, row⟩ := ih othersMembers
      cases bound : entity.get? field.name with
      | none =>
          refine ⟨attributes, ?_, .unbound bound row⟩
          change entity.fields.get? field.name = none at bound
          rw [writeAttributes, writesOthers]
          simp only [Option.bind_eq_bind, Option.bind_some, bound]
          rfl
      | some value =>
          obtain ⟨type, scalar⟩ := placed.attribute_scalarType? isAttribute
          obtain ⟨same, text, written, reads⟩ := ready.scalar_written writable
            (Layout.mem_attributeFields_iff.1 isAttribute).1 scalar bound
          refine ⟨_, ?_, .bound bound scalar same reads row⟩
          change entity.fields.get? field.name = some value at bound
          rw [writeAttributes, writesOthers]
          simp only [Option.bind_eq_bind, Option.bind_some, bound, written]
          rfl

structure AttributesRead (entity : Entity) (fields : List TaggedField) (before after : FieldValues) :
    Prop where
  kept : ∀ name, after.get? name = before.get? name ∨
    (after.get? name = entity.get? name ∧ ∃ field ∈ fields, field.name = name)
  here : ∀ field ∈ fields, entity.get? field.name ≠ none → after.get? field.name = entity.get? field.name

theorem AttributesRead.cons {field : TaggedField} {others : List TaggedField} {value : Value}
    {before after : FieldValues} (present : entity.get? field.name = some value)
    (read : AttributesRead entity others (before.set field.name value) after) :
    AttributesRead entity (field :: others) before after := by
  have fieldRead : after.get? field.name = entity.get? field.name := by
    rcases read.kept field.name with kept | ⟨same, _⟩
    · rw [kept, OrderedMap.get?_set_self, present]
    · exact same
  constructor
  · intro name
    by_cases same : field.name = name
    · rw [← same]
      exact .inr ⟨fieldRead, field, List.mem_cons_self, rfl⟩
    · rcases read.kept name with kept | ⟨bound, other, member, nameEq⟩
      · rw [OrderedMap.get?_set_of_ne before value same] at kept
        exact .inl kept
      · exact .inr ⟨bound, other, List.mem_cons_of_mem _ member, nameEq⟩
  · intro other member bound
    rcases List.mem_cons.1 member with rfl | later
    · exact fieldRead
    · exact read.here other later bound

theorem AttributesRead.skip {field : TaggedField} {others : List TaggedField}
    {before after : FieldValues} (absent : entity.get? field.name = none)
    (read : AttributesRead entity others before after) :
    AttributesRead entity (field :: others) before after := by
  constructor
  · intro name
    rcases read.kept name with kept | ⟨bound, other, member, nameEq⟩
    · exact .inl kept
    · exact .inr ⟨bound, other, List.mem_cons_of_mem _ member, nameEq⟩
  · intro other member bound
    rcases List.mem_cons.1 member with rfl | later
    · exact absurd absent bound
    · exact read.here other later bound

private theorem attributeField?_tag (writable : layout.Writable) {field : TaggedField}
    (member : field ∈ layout.attributeFields) : layout.attributeField? field.tag = some field := by
  obtain ⟨isField, isAttribute⟩ := Layout.mem_attributeFields_iff.1 member
  cases found : layout.attributeField? field.tag with
  | none =>
      have no := List.find?_eq_none.1 found field isField
      rw [isAttribute] at no
      simp at no
  | some other =>
      have isOther := attributeField?_mem found
      have tagEq : other.tag = field.tag := by
        have marks := List.find?_some found
        simp only [Bool.and_eq_true, beq_iff_eq] at marks
        exact marks.2
      have otherMember := Layout.mem_attributeFields_iff.2 isOther
      rw [List.inj_on_of_nodup_map writable.attributeNames otherMember member tagEq]

private theorem isOwnAttribute_tag (writable : layout.Writable) {field : TaggedField}
    (member : field ∈ layout.attributeFields) (atRoot : Bool) :
    isOwnAttribute atRoot field.tag = true := by
  obtain ⟨_, noColon, notDeclaration⟩ := writable.attributeTags field member
  simp [isOwnAttribute, noColon, notDeclaration]

private theorem readAttributes_row (frame : Frame) (writable : frame.layout.Writable)
    {fields : List TaggedField} (members : ∀ field ∈ fields, field ∈ frame.layout.attributeFields)
    {attributes : List (String × String)} (row : AttributeRow entity fields attributes)
    (tag : Tag) (atRoot : Bool) (values : FieldValues) :
    Yields (context.readAttributes frame tag atRoot values attributes)
      (AttributesRead entity fields values) := by
  induction row generalizing values with
  | nil =>
      refine .pure ⟨fun name => .inl rfl, ?_⟩
      intro field member
      cases member
  | unbound absent row ih =>
      obtain ⟨_, othersMembers⟩ := List.forall_mem_cons.1 members
      apply (ih othersMembers values).weaken
      intro after read
      exact read.skip absent
  | bound present scalar same reads row ih =>
      rename_i field others attributes value text type
      obtain ⟨isAttribute, othersMembers⟩ := List.forall_mem_cons.1 members
      have coerced := reads context.strict frame.location
      simp only [Context.readAttributes, isOwnAttribute_tag writable isAttribute, if_true,
        attributeField?_tag writable isAttribute, scalar]
      apply Yields.afterLift coerced
      apply Yields.afterModify
      apply (ih othersMembers (values.set field.name value)).weaken
      intro after attributesRead
      exact attributesRead.cons present

private theorem requireAttributes_ok (ready : Ready schema resolved entity) {frame : Frame}
    (layoutEq : frame.layout = resolved.layout) {attributes : List (String × String)}
    (row : AttributeRow entity resolved.layout.attributeFields attributes) (name : String)
    (position : Position) :
    context.requireAttributes frame ⟨name, attributes, position⟩ = .ok () := by
  have noneMissing : frame.layout.attributeFields.find? (fun field =>
      field.declared.isRequired && !attributes.any (·.1 == field.tag)) = none := by
    rw [List.find?_eq_none, layoutEq]
    intro field member
    cases required : field.declared.isRequired with
    | false => simp
    | true =>
        have bound := ne_none_of_contains (ready.writable.required field member required)
        obtain ⟨pair, isPair, tagEq⟩ := List.mem_map.1 (row.mem_of_bound member bound)
        have present : attributes.any (·.1 == field.tag) = true :=
          List.any_eq_true.2 ⟨pair, isPair, by simpa using tagEq⟩
        simp [present]
  unfold Context.requireAttributes
  simp only [noneMissing]
  cases context.strict <;> rfl

/-! ### Start tags -/

/-- What the start tag has set agrees with the entity on the attributes. -/
structure Started (layout : Layout) (entity : Entity) (values : FieldValues) : Prop where
  attributes : ∀ field ∈ layout.attributeFields,
    SameBinding (values.get? field.name) (entity.get? field.name)
  scalars : OnlyBoundScalars layout entity values

private theorem sameBinding_none {left right : Option Value} (leftEq : left = none)
    (rightEq : right = none) :
    SameBinding left right := by
  rw [leftEq, rightEq]
  trivial

theorem OnlyBoundScalars.eq_none (scalars : OnlyBoundScalars layout entity values) {name : String}
    (unbound : entity.get? name = none) : values.get? name = none := by
  cases found : values.get? name with
  | none => rfl
  | some value =>
      have isSet : values.get? name ≠ none := by
        rw [found]
        exact Option.some_ne_none value
      exact absurd unbound (scalars name isSet).1

private theorem started_of_attributes (ready : Ready schema resolved entity)
    (writable : resolved.layout.Writable) (placed : resolved.layout.Placed)
    {before after : FieldValues} (scalars : OnlyBoundScalars resolved.layout entity before)
    (read : AttributesRead entity resolved.layout.attributeFields before after) :
    Started resolved.layout entity after := by
  constructor
  · intro field member
    cases bound : entity.get? field.name with
    | none =>
        apply sameBinding_none _ rfl
        rcases read.kept field.name with kept | ⟨same, _⟩
        · rw [kept, scalars.eq_none bound]
        · rw [same, bound]
    | some value =>
        have isBound : entity.get? field.name ≠ none := by
          rw [bound]
          exact Option.some_ne_none value
        obtain ⟨type, scalar⟩ := placed.attribute_scalarType? member
        rw [read.here field member isBound, bound]
        exact (ready.scalar_written writable (Layout.mem_attributeFields_iff.1 member).1 scalar bound).1
  · intro name isSet
    rcases read.kept name with kept | ⟨same, field, member, nameEq⟩
    · rw [kept] at isSet
      exact scalars name isSet
    · obtain ⟨type, scalar⟩ := placed.attribute_scalarType? member
      rw [same] at isSet
      refine ⟨isSet, field, (Layout.mem_attributeFields_iff.1 member).1, nameEq, ?_⟩
      rw [scalar]
      exact Option.some_ne_none type

theorem beginEntity_started (ready : Ready context.schema resolved entity)
    (writable : resolved.layout.Writable) (placed : resolved.layout.Placed)
    {attributes : List (String × String)}
    (row : AttributeRow entity resolved.layout.attributeFields attributes) (name : String)
    (position : Position) (atRoot : Bool) :
    Yields (context.beginEntity entity.className ⟨name, attributes, position⟩ atRoot) fun begun =>
      begun.1.layout = resolved.layout ∧ Started resolved.layout entity begun.2 := by
  have identified (location : Location) : Yields (newEntity location) fun _ => True := by
    intro session
    exact ⟨_, _, rfl, trivial⟩
  unfold Context.beginEntity
  simp only [ready.isInstance.declared, ready.isInstance.concrete, Bool.false_eq_true, if_false]
  apply (identified _).bind
  intro id _
  obtain ⟨defaults, defaultsEq, scalars⟩ :=
    defaultValues_bound writable ready.writable (context.locate position)
  apply Yields.afterLift defaultsEq
  apply (readAttributes_row ⟨id, resolved.layout, context.locate position⟩ writable
    (fun _ member => member) row _ atRoot defaults).bind
  intro values read
  apply Yields.afterLift (requireAttributes_ok ready rfl row name position)
  exact .pure ⟨rfl, started_of_attributes ready writable placed scalars read⟩

/-! ### Contents -/

private theorem sameBinding_of_unknown (ready : Ready schema resolved entity)
    (scalars : OnlyBoundScalars resolved.layout entity values) {name : String}
    (unknown : ∀ field ∈ resolved.layout.fields, field.name ≠ name) :
    SameBinding (values.get? name) (entity.get? name) := by
  have unbound : entity.get? name = none := by
    apply OrderedMap.get?_eq_none_iff.2
    intro member
    obtain ⟨field, isField, nameEq⟩ := ready.isInstance.known name member
    exact unknown field isField nameEq
  exact sameBinding_none (scalars.eq_none unbound) unbound

/-- Names that belong to no element field and not to the content are settled by the start tag. -/
theorem Started.sameBinding (ready : Ready schema resolved entity) (placed : resolved.layout.Placed)
    (started : Started resolved.layout entity values) {name : String}
    (noElement : ∀ field ∈ resolved.layout.elementFields, field.name ≠ name)
    (noContent : ∀ field, resolved.layout.contentField? = some field → field.name ≠ name) :
    SameBinding (values.get? name) (entity.get? name) := by
  by_cases known : ∃ field ∈ resolved.layout.fields, field.name = name
  · obtain ⟨field, member, nameEq⟩ := known
    rcases placed.cases member with isAttribute | isContent | isElement
    · rw [← nameEq]
      exact started.attributes field isAttribute
    · exact absurd nameEq (noContent field isContent)
    · exact absurd nameEq (noElement field isElement)
  · apply sameBinding_of_unknown ready started.scalars
    intro field member nameEq
    exact known ⟨field, member, nameEq⟩

theorem readContentField_written (context : Context) (ready : Ready schema resolved entity)
    (writable : resolved.layout.Writable) (placed : resolved.layout.Placed) {field : TaggedField}
    (isContent : resolved.layout.contentField? = some field) :
    ∃ text, Graph.contentText? entity.fields field = some text ∧
      ∀ frame values tag content, content.Holds text .stop → Started resolved.layout entity values →
        Yields (context.readContentField frame values field tag content) fun values =>
          ∀ name, SameBinding (values.get? name) (entity.get? name) := by
  obtain ⟨type, scalar⟩ := placed.content_scalarType? isContent
  have member := (Layout.contentField?_mem_fields isContent).1
  have exact := isExact_of_scalarType? writable member scalar
  cases bound : entity.get? field.name with
  | none => exact absurd bound (ne_none_of_contains (ready.writable.content field isContent))
  | some value =>
      obtain ⟨same, text, written, reads⟩ := ready.scalar_written writable member scalar bound
      refine ⟨text, ?_, ?_⟩
      · change entity.fields.get? field.name = some value at bound
        rw [Graph.contentText?, bound]
        exact written
      · intro frame values tag content holds started
        have readsValue : context.scalar field.declared type tag content = .ok value := by
          rw [scalar_eq field.declared exact tag holds]
          exact reads context.strict _
        unfold Context.readContentField
        simp only [scalar]
        apply Yields.afterLift readsValue
        apply Yields.afterModify
        apply Yields.pure
        intro name
        by_cases here : field.name = name
        · rw [← here, OrderedMap.get?_set_self, bound]
          exact same
        · rw [OrderedMap.get?_set_of_ne values value here]
          apply started.sameBinding ready placed
          · intro other otherMember
            have none : resolved.layout.elementFields = [] := writable.content (by rw [isContent]; rfl)
            rw [none] at otherMember
            cases otherMember
          · intro other otherContent
            rw [isContent] at otherContent
            cases otherContent
            exact here

end Trellis.Reading
