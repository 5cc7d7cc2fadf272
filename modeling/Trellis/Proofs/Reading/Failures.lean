import Trellis.Proofs.Reading.Runs
import Trellis.Proofs.Schema.Acceptance
import Trellis.Reading.Reader

/-!
What a read can fail with.

A schema that has been built names no class it lacks and asks for no scalar where it declares none,
so a read of it never comes to the errors that stand for such a schema.  Errors of strictness come
of strict reads only.  Both are shown of each part of a read and carried over a content from token to
token.
-/

namespace Trellis.Reading

open Trellis.Graph (Entity Value)
open Markup (Content Document Ending Tag)
open Schema (Collection Declarations Field ItemType Layout MapEncoding ScalarType TaggedField)

/-- The errors that come of a document given as text, of its markup, its values and its elements
taken one by one, if the schema has been built. -/
def ReadError.ArisesPlainly (strict : Bool) : ReadError → Prop
  | .unknownClass _ | .notStandalone _ | .notUtf8 | .duplicateElement .. => False
  | .unexpectedRoot .. | .unknownElement .. | .unknownAttribute .. | .unexpectedText ..
  | .missingAttribute .. => strict = true
  | .coercion _ type _ _ =>
      match type with
      | .date => True
      | .character | .integer _ | .floating _ => strict = true
      | .boolean | .text | .tree => False
  | .markup _ | .noElement .. | .unexpectedElement .. | .unexpectedEnd _ | .abstractClass _ => True

def ReadError.Arises (strict : Bool) (error : ReadError) : Prop :=
  error.ArisesPlainly strict ∨ ∃ tag location, error = .duplicateElement tag location

theorem ReadError.ArisesPlainly.of_lenient {error : ReadError} (arises : error.ArisesPlainly false)
    (strict : Bool) : error.ArisesPlainly strict := by
  cases strict with
  | false => exact arises
  | true =>
      cases error with
      | coercion field type text location =>
          cases type <;> first | exact arises.elim | exact arises | exact rfl
      | _ => first | exact arises.elim | exact arises | exact rfl

variable {context : Context}

/-! ### Passing over, and reading without classes -/

theorem breakError_arises (ending : Ending) : (context.breakError ending).ArisesPlainly context.strict := by
  cases ending <;> trivial

private theorem passContent_errs (inside : Content) :
    ErrsIn (·.ArisesPlainly context.strict) (context.passContent inside) := by
  unfold Context.passContent
  cases inside.break? with
  | none => exact .ok
  | some ending => exact .error (breakError_arises ending)

theorem passText_errs (position : Position) (text : String) :
    ErrsIn (·.ArisesPlainly context.strict) (context.passText position text) := by
  unfold Context.passText
  split
  · rename_i refused
    simp only [Bool.and_eq_true] at refused
    exact .error refused.1
  · exact .ok

theorem passElement_errs (tag : Tag) (inside : Content) :
    ErrsIn (·.ArisesPlainly context.strict) (context.passElement tag inside) := by
  unfold Context.passElement
  split
  · rename_i strict
    exact .error strict
  · exact passContent_errs inside

private theorem textOf_errs (content : Content) :
    ErrsIn (·.ArisesPlainly context.strict) (context.textOf content) := by
  induction content with
  | closed encoding => exact .ok
  | broken ending => exact .error (breakError_arises ending)
  | text position text rest ih => exact ih.map
  | element tag inside rest _ _ => exact .error trivial

private theorem partsOf_errs (content : Content) :
    ErrsIn (·.ArisesPlainly context.strict) (context.partsOf content) := by
  induction content with
  | closed encoding => exact .ok
  | broken ending => exact .error (breakError_arises ending)
  | text position text rest ih => exact ih.bind fun _ _ => .ok
  | element tag inside rest ihInside ihRest =>
      exact ihInside.bind fun _ _ => ihRest.bind fun _ _ => .ok

theorem coerce_errsIn {allowed : ReadError → Prop} {strict : Bool} {field : Field} {type : ScalarType}
    {raw : String} {location : Location}
    (unread : scalarOf? field type (fieldText field raw) = none →
      allowed (.coercion field.name type (fieldText field raw) location)) :
    ErrsIn allowed (coerce strict field type raw location) := by
  intro error failed
  unfold coerce at failed
  simp only at failed
  split at failed
  · cases failed
  · rename_i nothing
    cases failed
    exact unread (Option.or_eq_none_iff.1 nothing).1

private theorem coerce_errs (strict : Bool) (field : Field) {type : ScalarType} (notTree : type ≠ .tree)
    (raw : String) (location : Location) :
    ErrsIn (·.ArisesPlainly strict) (coerce strict field type raw location) := by
  have failing (unread : scalarOf? field type (fieldText field raw) = none)
      (arises : strict = false → ∃ value, fallback? type = some value)
      (strictly : (ReadError.coercion field.name type (fieldText field raw) location).ArisesPlainly true) :
      ErrsIn (·.ArisesPlainly strict) (coerce strict field type raw location) := by
    simp only [coerce, unread, Option.none_or]
    cases strict with
    | true => exact .error strictly
    | false =>
        obtain ⟨value, valueEq⟩ := arises rfl
        simp only [Bool.false_eq_true, if_false, valueEq]
        exact .ok
  cases readEq : scalarOf? field type (fieldText field raw) with
  | some value =>
      simp only [coerce, readEq, Option.some_or]
      exact .ok
  | none =>
      cases type with
      | boolean => cases readEq
      | text => cases readEq
      | tree => exact absurd rfl notTree
      | character => exact failing readEq (fun _ => ⟨_, rfl⟩) rfl
      | integer width => exact failing readEq (fun _ => ⟨_, rfl⟩) rfl
      | floating precision => exact failing readEq (fun _ => ⟨_, rfl⟩) rfl
      | date =>
          have noFallback : (if strict = true then none else fallback? .date) = none := by
            cases strict <;> rfl
          simp only [coerce, readEq, Option.none_or, noFallback]
          exact .error trivial

theorem scalar_errs (field : Field) (type : ScalarType) (tag : Tag) (inside : Content) :
    ErrsIn (·.ArisesPlainly context.strict) (context.scalar field type tag inside) := by
  by_cases isTree : type = .tree
  · subst isTree
    exact ErrsIn.map ((partsOf_errs inside).bind fun _ _ => .ok)
  · have textual : context.scalar field type tag inside = (context.textOf inside >>= fun text =>
        coerce context.strict field type text (context.locate tag.position)) := by
      cases type <;> first | rfl | exact absurd rfl isTree
    rw [textual]
    exact (textOf_errs inside).bind fun text _ => coerce_errs _ _ isTree _ _

/-! ### Maps -/

private theorem entryPart_errs (field : Field) (parts : EntryParts) (tag : Tag) (inside : Content) :
    ErrsIn (·.ArisesPlainly context.strict) (context.entryPart field parts tag inside) := by
  unfold Context.entryPart
  split
  · exact (textOf_errs inside).bind fun _ _ => .ok
  · split
    · exact (textOf_errs inside).bind fun _ _ => .ok
    · exact (passContent_errs inside).bind fun _ _ => .ok

private theorem entryParts_errs (field : Field) (content : Content) (parts : EntryParts) :
    ErrsIn (·.ArisesPlainly context.strict) (context.entryParts field parts content) := by
  induction content generalizing parts with
  | closed encoding => exact .ok
  | broken ending => exact .error (breakError_arises ending)
  | text position text rest ih => exact (passText_errs position text).bind fun _ _ => ih parts
  | element tag inside rest _ ihRest =>
      exact (entryPart_errs field parts tag inside).bind fun parts _ => ihRest parts

private theorem readEntry_errs (id : EntityId) (field : TaggedField) (encoding : MapEncoding)
    (entries : OrderedMap String String) (tag : Tag) (inside : Content) :
    ReadErrsIn (·.ArisesPlainly context.strict)
      (context.readEntry id field encoding entries tag inside) := by
  cases encoding with
  | inline =>
      apply (ReadErrsIn.lift (textOf_errs inside)).andThen
      intro text
      exact ReadErrsIn.modify.andThen fun _ => .pure
  | explode =>
      unfold Context.readEntry
      simp only
      split
      · apply (ReadErrsIn.lift (entryParts_errs field.declared inside {})).andThen
        intro parts
        exact ReadErrsIn.modify.andThen fun _ => .pure
      · exact (ReadErrsIn.lift (passElement_errs tag inside)).andThen fun _ => .pure

private theorem readEntries_errs (id : EntityId) (field : TaggedField) (encoding : MapEncoding)
    (content : Content) (entries : OrderedMap String String) :
    ReadErrsIn (·.ArisesPlainly context.strict)
      (context.readEntries id field encoding entries content) := by
  induction content generalizing entries with
  | closed _ => exact .pure
  | broken ending => exact .throw (breakError_arises ending)
  | text position text rest ih =>
      exact (ReadErrsIn.lift (passText_errs position text)).andThen fun _ => ih entries
  | element tag inside rest _ ihRest =>
      exact (readEntry_errs id field encoding entries tag inside).andThen fun entries => ihRest entries

theorem readMap_errs (frame : Frame) (values : FieldValues) (field : TaggedField)
    (encoding : MapEncoding) (tag : Tag) (inside : Content) :
    ReadErrsIn (·.ArisesPlainly context.strict)
      (context.readMap frame values field encoding tag inside) := by
  have recorded : ReadErrsIn (·.ArisesPlainly context.strict)
      (recordField frame.id field.name (context.locate tag.position)) := .modify
  apply recorded.andThen
  intro _
  exact (readEntries_errs frame.id field encoding inside []).andThen fun _ => .pure

/-! ### Start tags -/

def IsLayout (schema : Schema) (layout : Layout) : Prop :=
  ∃ resolved ∈ schema.classes, resolved.layout = layout

theorem defaultValues_errsIn {allowed : ReadError → Prop} {layout : Layout} {location : Location}
    (one : ∀ field ∈ layout.fields, ∀ values, ErrsIn allowed (withDefault location values field)) :
    ErrsIn allowed (defaultValues layout location) := by
  unfold defaultValues
  generalize ([] : FieldValues) = values
  generalize layout.fields = fields at one
  induction fields generalizing values with
  | nil => exact .ok
  | cons field rest ih =>
      rw [List.forall_mem_cons] at one
      rw [List.foldlM_cons]
      exact (one.1 values).bind fun values _ => ih values one.2

private theorem defaultValues_errs (layout : Layout) (location : Location) :
    ErrsIn (·.ArisesPlainly context.strict) (defaultValues layout location) := by
  apply defaultValues_errsIn
  intro field _ values
  unfold withDefault
  split
  · rename_i text type _ _
    split
    · exact .ok
    · rename_i notTree
      have errs := coerce_errs false field.declared notTree text location
      exact ErrsIn.map (errs.weaken fun _ arises => arises.of_lenient context.strict)
  · exact .ok

theorem readAttributes_errsIn {allowed : ReadError → Prop} {frame : Frame} {tag : Tag} {atRoot : Bool}
    {attributes : List (String × String)}
    (unclaimed : ∀ pair ∈ attributes, frame.layout.attributeField? pair.1 = none →
      context.strict = true → allowed (.unknownAttribute pair.1 tag.name frame.location))
    (claimed : ∀ pair ∈ attributes, ∀ field type, frame.layout.attributeField? pair.1 = some field →
      field.declared.scalarType? = some type →
        ErrsIn allowed (coerce context.strict field.declared type pair.2 frame.location))
    (values : FieldValues) :
    ReadErrsIn allowed (context.readAttributes frame tag atRoot values attributes) := by
  induction attributes generalizing values with
  | nil => exact .pure
  | cons pair rest ih =>
      obtain ⟨name, raw⟩ := pair
      rw [List.forall_mem_cons] at unclaimed claimed
      have goesOn := ih unclaimed.2 claimed.2
      simp only [Context.readAttributes]
      split
      · cases fieldEq : frame.layout.attributeField? name with
        | none =>
            simp only
            split
            · rename_i refused
              simp only [Bool.and_eq_true] at refused
              exact .throw (unclaimed.1 fieldEq refused.1)
            · exact goesOn values
        | some field =>
            simp only
            cases typeEq : field.declared.scalarType? with
            | none => exact goesOn values
            | some type =>
                simp only
                apply (ReadErrsIn.lift (claimed.1 field type fieldEq typeEq)).andThen
                intro value
                exact ReadErrsIn.modify.andThen fun _ => goesOn _
      · exact goesOn values

theorem recordCollection_errs {allowed : ReadError → Prop} (id : EntityId) (field : String)
    (type : ItemType) (location : Location) :
    ReadErrsIn allowed (recordCollection id field type location) := by
  unfold recordCollection
  split
  · exact .modify
  · exact .pure

theorem addItem_errs {allowed : ReadError → Prop} (id : EntityId) (field : TaggedField)
    (collection : Collection) (type : ItemType) (tag : Tag) (holder value : Value) :
    ReadErrsIn allowed (context.addItem id field collection type tag holder value) := by
  unfold Context.addItem
  obtain ⟨pushed, added⟩ := holder.push value
  cases added with
  | none => exact .pure
  | some position =>
      simp only
      split
      · exact ReadErrsIn.modify.andThen fun _ => .pure
      · exact .pure

theorem keepItem_errs {allowed : ReadError → Prop} (frame : Frame) (values : FieldValues)
    (field : TaggedField) (collection : Collection) (type : ItemType) (tag : Tag) (value : Value) :
    ReadErrsIn allowed (context.keepItem frame values field collection type tag value) := by
  have recorded : ReadErrsIn allowed
      (recordCollection frame.id field.name type (context.locate tag.position)) :=
    recordCollection_errs _ _ _ _
  have added (holder : Value) : ReadErrsIn allowed
      (context.addItem frame.id field collection type tag holder value) :=
    addItem_errs _ _ _ _ _ _ _
  exact recorded.andThen fun _ => (added _).andThen fun _ => .pure

variable (complete : context.schema.Complete)
include complete

private theorem readAttributes_errs (frame : Frame) (known : IsLayout context.schema frame.layout)
    (tag : Tag)
    (atRoot : Bool) (attributes : List (String × String)) (values : FieldValues) :
    ReadErrsIn (·.ArisesPlainly context.strict)
      (context.readAttributes frame tag atRoot values attributes) := by
  obtain ⟨resolved, isResolved, layoutEq⟩ := known
  apply readAttributes_errsIn
  · exact fun _ _ _ strict => strict
  · intro pair _ field type fieldEq typeEq
    rw [← layoutEq] at fieldEq
    obtain ⟨textual, textualEq, notTree⟩ := complete.attribute_textual isResolved fieldEq
    rw [typeEq] at textualEq
    cases textualEq
    exact coerce_errs _ _ notTree _ _

omit complete in
private theorem requireAttributes_errs (frame : Frame) (tag : Tag) :
    ErrsIn (·.ArisesPlainly context.strict) (context.requireAttributes frame tag) := by
  unfold Context.requireAttributes
  simp only
  split
  · rename_i field found
    split at found
    · rename_i strict
      exact .error strict
    · cases found
  · exact .ok

omit complete in
theorem isLayout_of_layout? {schema : Schema} {className : String} {layout : Layout}
    (found : schema.layout? className = some layout) : IsLayout schema layout := by
  unfold Schema.layout? at found
  obtain ⟨resolved, foundEq, rfl⟩ := Option.map_eq_some_iff.1 found
  exact ⟨resolved, List.mem_of_find?_eq_some foundEq, rfl⟩

omit complete in
theorem beginEntity_layout (className : String) (tag : Tag) (atRoot : Bool) :
    Ensures (context.beginEntity className tag atRoot) fun begun =>
      context.schema.layout? className = some begun.1.layout := by
  unfold Context.beginEntity
  cases foundEq : context.schema.find? className with
  | none => exact .throw
  | some resolved =>
      simp only
      split
      · exact .throw
      · apply Ensures.andThen
        intro id
        apply Ensures.andThen
        intro values
        apply Ensures.andThen
        intro values
        apply Ensures.andThen
        intro _
        refine .pure ?_
        rw [Schema.layout?, foundEq]
        rfl

theorem beginEntity_errs {className : String}
    (found : ∃ resolved, context.schema.find? className = some resolved) (tag : Tag) (atRoot : Bool) :
    ReadErrsIn (·.ArisesPlainly context.strict) (context.beginEntity className tag atRoot) := by
  obtain ⟨resolved, foundEq⟩ := found
  unfold Context.beginEntity
  simp only [foundEq]
  split
  · exact .throw trivial
  · have newId : ReadErrsIn (·.ArisesPlainly context.strict) (newEntity (context.locate tag.position)) :=
      fun _ => .ok
    apply newId.andThen
    intro id
    apply (ReadErrsIn.lift (defaultValues_errs resolved.layout _)).andThen
    intro values
    have known : IsLayout context.schema resolved.layout :=
      ⟨resolved, List.mem_of_find?_eq_some foundEq, rfl⟩
    have attributes := readAttributes_errs complete
      ⟨id, resolved.layout, context.locate tag.position⟩ known tag atRoot tag.attributes values
    exact attributes.andThen fun _ =>
      (ReadErrsIn.lift (requireAttributes_errs _ tag)).andThen fun _ => .pure

omit complete in
theorem readContentField_errs (frame : Frame) (values : FieldValues) (field : TaggedField) (tag : Tag)
    (inside : Content) :
    ReadErrsIn (·.ArisesPlainly context.strict)
      (context.readContentField frame values field tag inside) := by
  unfold Context.readContentField
  cases field.declared.scalarType? with
  | none => exact (ReadErrsIn.lift (passContent_errs inside)).andThen fun _ => .pure
  | some type =>
      apply (ReadErrsIn.lift (scalar_errs field.declared type tag inside)).andThen
      intro value
      exact ReadErrsIn.modify.andThen fun _ => .pure

omit complete

/-- Where a read falls back on reading nothing because a field is no scalar, the field is one: no
attribute or content field of a class is anything else, and no attribute is a tree. -/
def HasScalars (schema : Schema) : Prop :=
  ∀ resolved ∈ schema.classes,
    (∀ name field, resolved.layout.attributeField? name = some field →
      ∃ type, field.declared.scalarType? = some type ∧ type ≠ .tree) ∧
    ∀ field, resolved.layout.contentField? = some field →
      ∃ type, field.declared.scalarType? = some type

theorem hasScalars_of_complete {schema : Schema} (complete : schema.Complete) : HasScalars schema := by
  intro resolved member
  exact ⟨fun _ _ found => complete.attribute_textual member found,
    fun _ found => complete.content_scalar member found⟩

end Trellis.Reading
