import Trellis.Proofs.Graph.Conformance
import Trellis.Proofs.Reading.Soundness
import Trellis.Proofs.Writing.Body

/-!
Writing entities as elements, and what must hold of them to be read back.

An entity is written with its attributes, and then with its content or its element fields in the
order of its layout.  Writing has no result if a value is not of the kind that its field declares.
-/

namespace Trellis.Graph

open Calendar (DateTime nanosecondsPerSecond)
open Markup (Body)
open Number (paddedDigits)
open Schema (MapEncoding TaggedField)

/-! ### Texts of scalars -/

def momentText (moment : DateTime) : String :=
  let time := moment.time
  let second := time.second % 60 + time.nanosecond / nanosecondsPerSecond
  let millisecond := time.nanosecond % nanosecondsPerSecond / 1000000
  String.ofList (moment.date.text ++ 'T' :: paddedDigits 2 (time.second / 3600)
    ++ ':' :: paddedDigits 2 (time.second / 60 % 60) ++ ':' :: paddedDigits 2 second
    ++ '.' :: paddedDigits 3 millisecond)

def Value.writtenText? : Value → Option String
  | .date moment => some (momentText moment)
  | value => value.scalarText?

/-! ### Writing -/

def textElement (tag text : String) (rest : Body) : Body :=
  .element tag [] text .stop rest

def writeEntries (encoding : MapEncoding) (itemTag : String) : List (String × String) → Body
  | [] => .stop
  | (key, text) :: others =>
      let rest := writeEntries encoding itemTag others
      match encoding with
      | .inline => textElement key text rest
      | .explode =>
          .element itemTag [] "" (textElement "key" key (textElement "value" text .stop)) rest

def writeAttributes (fields : OrderedMap String Value) :
    List TaggedField → Option (List (String × String))
  | [] => some []
  | field :: others => do
      let attributes ← writeAttributes fields others
      match fields.get? field.name with
      | none => return attributes
      | some value =>
          let text ← value.writtenText?
          return (field.tag, text) :: attributes

def contentText? (fields : OrderedMap String Value) (field : TaggedField) : Option String :=
  match fields.get? field.name with
  | none => some ""
  | some value => value.writtenText?

mutual

def Entity.write (schema : Schema) (tag : String) (rest : Body) : Entity → Option Body
  | .mk _ className fields => do
      let layout ← schema.layout? className
      let attributes ← writeAttributes fields layout.attributeFields
      match layout.contentField? with
      | some field =>
          let text ← contentText? fields field
          return .element tag attributes text .stop rest
      | none =>
          let inside ← layout.elementFields.foldrM
            (fun field inside => Value.writeBound schema field inside fields) .stop
          return .element tag attributes "" inside rest
termination_by structural entity => entity

def Value.write (schema : Schema) (field : TaggedField) (rest : Body) : Value → Option Body
  | .entity inner =>
      match field.declared.kind with
      | .one _ => inner.write schema field.tag rest
      | _ => none
  | .collection _ items =>
      match field.declared.kind with
      | .many _ _ true => do
          let inside ← Value.writeItems schema field.itemTag .stop items
          return .element field.tag [] "" inside rest
      | .many _ _ false => Value.writeItems schema field.itemTag rest items
      | _ => none
  | .map entries =>
      match field.declared.kind with
      | .map encoding =>
          some (.element field.tag [] "" (writeEntries encoding field.itemTag entries) rest)
      | _ => none
  | value =>
      match field.declared.kind with
      | .scalar _ => value.writtenText?.map (textElement field.tag · rest)
      | _ => none
termination_by structural value => value

def Value.writeItem (schema : Schema) (itemTag : String) (rest : Body) : Value → Option Body
  | .entity inner => inner.write schema itemTag rest
  | value => value.writtenText?.map (textElement itemTag · rest)
termination_by structural value => value

def Value.writeItems (schema : Schema) (itemTag : String) (rest : Body) : List Value → Option Body
  | [] => some rest
  | item :: others => do
      let rest ← Value.writeItems schema itemTag rest others
      item.writeItem schema itemTag rest
termination_by structural items => items

def Value.writeBound (schema : Schema) (field : TaggedField) (rest : Body) :
    List (String × Value) → Option Body
  | [] => some rest
  | (name, value) :: others =>
      if name = field.name then value.write schema field rest
      else Value.writeBound schema field rest others
termination_by structural fields => fields

end

def Entity.render (schema : Schema) (entity : Entity) : Option String := do
  let layout ← schema.layout? entity.className
  let body ← entity.write schema layout.tag .stop
  return String.ofList body.chars

theorem Value.writeBound_of_get? {schema : Schema} {field : TaggedField} {rest : Body}
    {fields : List (String × Value)} {value : Value}
    (bound : OrderedMap.get? fields field.name = some value) :
    Value.writeBound schema field rest fields = value.write schema field rest := by
  induction fields with
  | nil => cases bound
  | cons entry others ih =>
      rw [OrderedMap.get?_cons] at bound
      rw [Value.writeBound]
      by_cases here : entry.1 = field.name
      · rw [if_pos here] at bound ⊢
        cases bound
        rfl
      · rw [if_neg here] at bound ⊢
        exact ih bound

theorem Value.writeBound_of_unbound {schema : Schema} {field : TaggedField} {rest : Body}
    {fields : List (String × Value)} (unbound : OrderedMap.get? fields field.name = none) :
    Value.writeBound schema field rest fields = some rest := by
  induction fields with
  | nil => rfl
  | cons entry others ih =>
      rw [OrderedMap.get?_cons] at unbound
      rw [Value.writeBound]
      by_cases here : entry.1 = field.name
      · rw [if_pos here] at unbound
        cases unbound
      · rw [if_neg here] at unbound ⊢
        exact ih unbound

end Trellis.Graph

namespace Trellis.Schema

open Markup (isName)
open Reading (DistinctNames)

/-! ### Layouts that can be written -/

/-- Whether the texts of the type's values are read as these values again: truth values, characters,
integers and texts. -/
def ScalarType.isExact : ScalarType → Bool
  | .boolean | .character | .integer _ | .text => true
  | .floating _ | .date | .tree => false

def FieldKind.usedType? : FieldKind → Option ScalarType
  | .scalar type => some type
  | .many _ (.scalar type) _ => some type
  | _ => none

def TaggedField.matchingNames (field : TaggedField) : List String :=
  if field.declared.isUnwrapped then [field.itemTag] else field.tag :: field.declared.otherTag.toList

def TaggedField.writtenTags (field : TaggedField) : List String :=
  match field.declared.kind with
  | .scalar _ | .one _ | .map .inline => [field.tag]
  | .many _ _ true | .map .explode => [field.tag, field.itemTag]
  | .many _ _ false => [field.itemTag]

/-- Every field of the layout is written in a place of its own, as names and texts that can be
read. -/
structure Layout.Writable (layout : Layout) : Prop where
  names : DistinctNames layout
  tag : isName layout.tag = true
  exact : ∀ field ∈ layout.fields, ∀ type ∈ field.declared.kind.usedType?, type.isExact = true
  attributeNames : (layout.attributeFields.map (·.tag)).Nodup
  attributeTags : ∀ field ∈ layout.attributeFields,
    isName field.tag = true ∧ ':' ∉ field.tag.toList ∧ field.tag ≠ "xmlns"
  elementNames : layout.elementFields.Pairwise fun field other =>
    ∀ name ∈ field.matchingNames, name ∉ other.matchingNames
  elementTags : ∀ field ∈ layout.elementFields, ∀ tag ∈ field.writtenTags, isName tag = true
  content : layout.contentField?.isSome → layout.elementFields = []

instance (layout : Layout) : Decidable layout.Writable :=
  decidable_of_iff
    (DistinctNames layout ∧ isName layout.tag = true ∧
      (∀ field ∈ layout.fields, ∀ type ∈ field.declared.kind.usedType?, type.isExact = true) ∧
      (layout.attributeFields.map (·.tag)).Nodup ∧
      (∀ field ∈ layout.attributeFields,
        isName field.tag = true ∧ ':' ∉ field.tag.toList ∧ field.tag ≠ "xmlns") ∧
      (layout.elementFields.Pairwise fun field other =>
        ∀ name ∈ field.matchingNames, name ∉ other.matchingNames) ∧
      (∀ field ∈ layout.elementFields, ∀ tag ∈ field.writtenTags, isName tag = true) ∧
      (layout.contentField?.isSome → layout.elementFields = []))
    ⟨fun ⟨names, tag, exact, attributeNames, attributeTags, elementNames, elementTags, content⟩ =>
        ⟨names, tag, exact, attributeNames, attributeTags, elementNames, elementTags, content⟩,
      fun writable => ⟨writable.names, writable.tag, writable.exact, writable.attributeNames,
        writable.attributeTags, writable.elementNames, writable.elementTags, writable.content⟩⟩

theorem TaggedField.goesBy_iff {field : TaggedField} {name : String} :
    field.goesBy name = true ↔ name ∈ field.matchingNames := by
  unfold TaggedField.goesBy TaggedField.matchingNames
  split
  · simp only [beq_iff_eq, List.mem_singleton]
  · simp only [Bool.or_eq_true, beq_iff_eq, List.mem_cons, Option.mem_toList]

theorem TaggedField.tag_mem_matchingNames {field : TaggedField}
    (whole : field.declared.isUnwrapped = false) : field.tag ∈ field.matchingNames := by
  rw [TaggedField.matchingNames, if_neg (by rw [whole]; exact Bool.false_ne_true)]
  exact List.mem_cons_self

theorem TaggedField.itemTag_mem_matchingNames {field : TaggedField}
    (unwrapped : field.declared.isUnwrapped = true) : field.itemTag ∈ field.matchingNames := by
  rw [TaggedField.matchingNames, if_pos unwrapped]
  exact List.mem_cons_self

theorem TaggedField.tag_mem_writtenTags {field : TaggedField}
    (whole : field.declared.isUnwrapped = false) : field.tag ∈ field.writtenTags := by
  unfold TaggedField.writtenTags
  split
  case h_6 kind =>
    rw [Field.isUnwrapped_of_kind kind] at whole
    cases whole
  all_goals exact List.mem_cons_self

theorem TaggedField.itemTag_mem_writtenTags {field : TaggedField} {collection : Collection}
    {type : ItemType} {wrapped : Bool} (kind : field.declared.kind = .many collection type wrapped) :
    field.itemTag ∈ field.writtenTags := by
  rw [TaggedField.writtenTags, kind]
  cases wrapped with
  | true => exact List.mem_cons_of_mem _ List.mem_cons_self
  | false => exact List.mem_cons_self

end Trellis.Schema

namespace Trellis.Graph

open Markup (isName)
open Schema (Layout)

/-! ### Entities that can be written -/

def Value.IsTrim : Value → Prop
  | .text content => Text.trim content = content
  | .character c => Text.isBlank c = false
  | _ => True

def Value.Trimmed : Value → Prop
  | .collection _ items => ∀ item ∈ items, item.IsTrim
  | .map entries => ∀ entry ∈ entries, Text.trim entry.2 = entry.2
  | value => value.IsTrim

/-- The entity binds what a read would put in otherwise or insist on, and nothing in it is lost in
writing. -/
structure Entity.Writable (layout : Layout) (entity : Entity) : Prop where
  /-- An empty list or set without an element of its own leaves no mark. -/
  filled : ∀ field ∈ layout.elementFields, field.declared.isUnwrapped = true →
    ∀ kind, entity.get? field.name ≠ some (.collection kind [])
  required : ∀ field ∈ layout.attributeFields, field.declared.isRequired = true →
    entity.contains field.name = true
  defaults : ∀ field ∈ layout.fields, field.declared.default.isSome → field.declared.scalarType?.isSome →
    entity.contains field.name = true
  content : ∀ field, layout.contentField? = some field → entity.contains field.name = true
  trimmed : ∀ field ∈ layout.fields, field.declared.trims = true →
    ∀ value, entity.get? field.name = some value → value.Trimmed
  keys : ∀ field ∈ layout.elementFields, field.declared.kind = .map .inline →
    ∀ entries, entity.get? field.name = some (.map entries) → ∀ entry ∈ entries, isName entry.1 = true

end Trellis.Graph
