import Trellis.Reading.Reader

/-!
Strict and lenient reads in step.

A strict read differs from a lenient one only in what it refuses.  Until it refuses something for
being strict, the two have the same values and the same session at every token, and where neither is
at fault both fail alike.  A lenient read never fails with an error of strictness.
-/

namespace Trellis.Reading

open Trellis.Graph (Entity Tree Value)
open Markup (Content Document Ending Tag)
open Schema (Collection Field ItemType Layout MapEncoding ScalarType TaggedField)

/-! ### Errors of strictness -/

def isForgiven : ScalarType → Prop
  | .character | .integer _ | .floating _ => True
  | .boolean | .text | .date | .tree => False

def ReadError.IsPolicy : ReadError → Prop
  | .unexpectedRoot .. | .unknownElement .. | .unknownAttribute .. | .unexpectedText ..
  | .missingAttribute .. => True
  | .coercion _ type _ _ => isForgiven type
  | _ => False

/-- What a strict and a lenient read of the same thing come to. -/
inductive InStep {α : Type} : Except ReadError α → Except ReadError α → Prop
  | accepted (value : α) : InStep (.ok value) (.ok value)
  | failed {error : ReadError} (ordinary : ¬ error.IsPolicy) : InStep (.error error) (.error error)
  | refused {error : ReadError} {lenient : Except ReadError α} (policy : error.IsPolicy)
      (tolerant : ∀ error, lenient = .error error → ¬ error.IsPolicy) : InStep (.error error) lenient

namespace InStep

variable {α β : Type} {strict lenient : Except ReadError α}

private theorem tolerant (step : InStep strict lenient) :
    ∀ error, lenient = .error error → ¬ error.IsPolicy := by
  cases step with
  | accepted value =>
      intro error impossible
      cases impossible
  | failed ordinary =>
      intro error same
      cases same
      exact ordinary
  | refused _ tolerant => exact tolerant

private theorem tolerant_ok (value : α) :
    ∀ error, (Except.ok value : Except ReadError α) = .error error → ¬ error.IsPolicy := by
  intro error impossible
  cases impossible

theorem bind {next next' : α → Except ReadError β} (step : InStep strict lenient)
    (later : ∀ value, InStep (next value) (next' value)) :
    InStep (strict >>= next) (lenient >>= next') := by
  cases step with
  | accepted value => exact later value
  | failed ordinary => exact .failed ordinary
  | refused policy tolerant =>
      apply InStep.refused policy
      intro error failed
      cases lenient with
      | error first =>
          cases failed
          exact tolerant _ rfl
      | ok value => exact (later value).tolerant error failed

theorem map (f : α → β) (step : InStep strict lenient) : InStep (f <$> strict) (f <$> lenient) := by
  cases step with
  | accepted value => exact .accepted (f value)
  | failed ordinary => exact .failed ordinary
  | refused policy tolerant =>
      apply InStep.refused policy
      intro error failed
      cases lenient with
      | error first =>
          cases failed
          exact tolerant _ rfl
      | ok value => cases failed

theorem same {outcome : Except ReadError α}
    (ordinary : ∀ error, outcome = .error error → ¬ error.IsPolicy) : InStep outcome outcome := by
  cases outcome with
  | ok value => exact .accepted value
  | error error => exact .failed (ordinary error rfl)

/-- The three ways exclude one another. -/
private theorem exactly_one (step : InStep strict lenient) :
    let accepted := ∃ value, strict = .ok value ∧ lenient = .ok value
    let failed := ∃ error, strict = .error error ∧ lenient = .error error
    let refused := ∃ error, strict = .error error ∧ error.IsPolicy
    (accepted ∨ failed ∨ refused) ∧ ¬ (accepted ∧ failed) ∧ ¬ (accepted ∧ refused) ∧
      ¬ (failed ∧ refused) := by
  refine ⟨?_, ?_, ?_, ?_⟩
  · cases step with
    | accepted value => exact .inl ⟨value, rfl, rfl⟩
    | failed ordinary => exact .inr (.inl ⟨_, rfl, rfl⟩)
    | refused policy _ => exact .inr (.inr ⟨_, rfl, policy⟩)
  · intro both
    obtain ⟨⟨value, strictEq, _⟩, error, strictEq', _⟩ := both
    rw [strictEq] at strictEq'
    cases strictEq'
  · intro both
    obtain ⟨⟨value, strictEq, _⟩, error, strictEq', _⟩ := both
    rw [strictEq] at strictEq'
    cases strictEq'
  · intro both
    obtain ⟨⟨error, strictEq, lenientEq⟩, refusal, strictEq', policy⟩ := both
    rw [strictEq] at strictEq'
    cases strictEq'
    exact step.tolerant error lenientEq policy

end InStep

def ReadsInStep {α : Type} (strict lenient : Read α) : Prop :=
  ∀ session, InStep (strict session) (lenient session)

namespace ReadsInStep

variable {α β : Type} {strict lenient : Read α}

theorem pure (value : α) : ReadsInStep (pure value) (pure value) := by
  intro session
  exact .accepted _

theorem throw {error : ReadError} (ordinary : ¬ error.IsPolicy) :
    ReadsInStep (MonadExcept.throw error : Read α) (MonadExcept.throw error) := by
  intro session
  exact .failed ordinary

theorem bind {next next' : α → Read β} (step : ReadsInStep strict lenient)
    (later : ∀ value, ReadsInStep (next value) (next' value)) :
    ReadsInStep (strict >>= next) (lenient >>= next') := by
  intro session
  exact (step session).bind fun found => later found.1 found.2

theorem map (f : α → β) (step : ReadsInStep strict lenient) :
    ReadsInStep (f <$> strict) (f <$> lenient) := by
  rw [← bind_pure_comp, ← bind_pure_comp]
  exact step.bind fun value => .pure (f value)

theorem lift {outcome outcome' : Except ReadError α} (step : InStep outcome outcome') :
    ReadsInStep (liftM outcome) (liftM outcome') := by
  intro session
  exact step.bind fun value => .accepted (value, session)

theorem refuse {error : ReadError} {other : Read α} (policy : error.IsPolicy)
    (later : ReadsInStep other lenient) :
    ReadsInStep (MonadExcept.throw error) lenient := by
  intro session
  exact .refused policy (later session).tolerant

theorem modify (record : Session → Session) : ReadsInStep (modify record) (modify record) := by
  intro session
  exact .accepted _

end ReadsInStep

/-! ### Passing over, and reading without classes -/

def Context.strictly (context : Context) : Context :=
  { context with strict := true }

def Context.leniently (context : Context) : Context :=
  { context with strict := false }

variable (context : Context)

private theorem breakError_ordinary (ending : Ending) : ¬ (context.breakError ending).IsPolicy := by
  cases ending <;> exact id

private theorem inStep_passContent (inside : Content) :
    InStep (context.strictly.passContent inside) (context.leniently.passContent inside) := by
  unfold Context.passContent
  cases inside.break? with
  | none => exact .accepted ()
  | some ending => exact .failed (breakError_ordinary context ending)

private theorem inStep_passText (position : Position) (text : String) :
    InStep (context.strictly.passText position text) (context.leniently.passText position text) := by
  have lenientEq : context.leniently.passText position text = .ok () := rfl
  rw [lenientEq]
  unfold Context.passText
  by_cases blank : (context.strictly.strict && !Text.isBlankText text) = true
  · have policy : (ReadError.unexpectedText (context.locate position)).IsPolicy := trivial
    rw [if_pos blank]
    exact .refused policy (InStep.tolerant_ok ())
  · rw [if_neg blank]
    exact .accepted ()

private theorem inStep_passElement (tag : Tag) (inside : Content) :
    InStep (context.strictly.passElement tag inside) (context.leniently.passElement tag inside) := by
  have strictEq : context.strictly.passElement tag inside =
      .error (.unknownElement tag.name (context.locate tag.position)) := rfl
  have lenientEq : context.leniently.passElement tag inside = context.leniently.passContent inside := rfl
  rw [strictEq, lenientEq]
  exact .refused trivial (inStep_passContent context inside).tolerant

private theorem inStep_textOf (content : Content) :
    InStep (context.strictly.textOf content) (context.leniently.textOf content) := by
  induction content with
  | closed encoding => exact .accepted ""
  | broken ending => exact .failed (breakError_ordinary context ending)
  | text position text rest ih => exact ih.map _
  | element tag inside rest _ _ => exact .failed id

private theorem inStep_partsOf (content : Content) :
    InStep (context.strictly.partsOf content) (context.leniently.partsOf content) := by
  induction content with
  | closed encoding => exact .accepted ("", [])
  | broken ending => exact .failed (breakError_ordinary context ending)
  | text position text rest ih => exact ih.bind fun found => .accepted _
  | element tag inside rest ihInside ihRest =>
      apply ihInside.bind
      intro inner
      exact ihRest.bind fun found => .accepted _

private theorem inStep_treeOf (tag : Tag) (inside : Content) :
    InStep (context.strictly.treeOf tag inside) (context.leniently.treeOf tag inside) :=
  (inStep_partsOf context inside).bind fun _ => .accepted _

private theorem inStep_coerce (field : Field) (type : ScalarType) (raw : String) (location : Location) :
    InStep (coerce true field type raw location) (coerce false field type raw location) := by
  have refusal : (ReadError.coercion field.name type (fieldText field raw) location).IsPolicy ↔
      isForgiven type := Iff.rfl
  simp only [coerce]
  cases scalarOf? field type (fieldText field raw) with
  | some value => exact .accepted value
  | none =>
      cases type with
      | character => exact .refused (refusal.2 trivial) (InStep.tolerant_ok _)
      | integer width => exact .refused (refusal.2 trivial) (InStep.tolerant_ok _)
      | floating precision => exact .refused (refusal.2 trivial) (InStep.tolerant_ok _)
      | boolean => exact .failed refusal.1
      | text => exact .failed refusal.1
      | date => exact .failed refusal.1
      | tree => exact .failed refusal.1

private theorem inStep_scalar (field : Field) (type : ScalarType) (tag : Tag) (inside : Content) :
    InStep (context.strictly.scalar field type tag inside)
      (context.leniently.scalar field type tag inside) := by
  have textual : InStep
      (context.strictly.textOf inside >>= fun text =>
        coerce true field type text (context.locate tag.position))
      (context.leniently.textOf inside >>= fun text =>
        coerce false field type text (context.locate tag.position)) :=
    (inStep_textOf context inside).bind fun text => inStep_coerce field type text _
  cases type with
  | tree => exact (inStep_treeOf context tag inside).map _
  | _ => exact textual

/-! ### Maps -/

private theorem inStep_entryPart (field : Field) (parts : EntryParts) (tag : Tag) (inside : Content) :
    InStep (context.strictly.entryPart field parts tag inside)
      (context.leniently.entryPart field parts tag inside) := by
  unfold Context.entryPart
  split
  · exact (inStep_textOf context inside).bind fun _ => .accepted _
  · split
    · exact (inStep_textOf context inside).bind fun _ => .accepted _
    · exact (inStep_passContent context inside).bind fun _ => .accepted _

private theorem inStep_entryParts (field : Field) (content : Content) (parts : EntryParts) :
    InStep (context.strictly.entryParts field parts content)
      (context.leniently.entryParts field parts content) := by
  induction content generalizing parts with
  | closed encoding => exact .accepted parts
  | broken ending => exact .failed (breakError_ordinary context ending)
  | text position text rest ih =>
      exact (inStep_passText context position text).bind fun _ => ih parts
  | element tag inside rest _ ihRest =>
      exact (inStep_entryPart context field parts tag inside).bind fun parts => ihRest parts

private theorem readsInStep_readEntry (id : EntityId) (field : TaggedField) (encoding : MapEncoding)
    (entries : OrderedMap String String) (tag : Tag) (inside : Content) :
    ReadsInStep (context.strictly.readEntry id field encoding entries tag inside)
      (context.leniently.readEntry id field encoding entries tag inside) := by
  cases encoding with
  | inline =>
      apply (ReadsInStep.lift (inStep_textOf context inside)).bind
      intro text
      exact (ReadsInStep.modify _).bind fun _ => .pure _
  | explode =>
      unfold Context.readEntry
      simp only
      split
      · apply (ReadsInStep.lift (inStep_entryParts context field.declared inside {})).bind
        intro parts
        exact (ReadsInStep.modify _).bind fun _ => .pure _
      · exact (ReadsInStep.lift (inStep_passElement context tag inside)).bind fun _ => .pure _

private theorem readsInStep_readEntries (id : EntityId) (field : TaggedField) (encoding : MapEncoding)
    (content : Content) (entries : OrderedMap String String) :
    ReadsInStep (context.strictly.readEntries id field encoding entries content)
      (context.leniently.readEntries id field encoding entries content) := by
  induction content generalizing entries with
  | closed _ => exact .pure entries
  | broken ending => exact .throw (breakError_ordinary context ending)
  | text position text rest ih =>
      exact (ReadsInStep.lift (inStep_passText context position text)).bind fun _ => ih entries
  | element tag inside rest _ ihRest =>
      apply (readsInStep_readEntry context id field encoding entries tag inside).bind
      intro entries
      exact ihRest entries

private theorem readsInStep_readMap (frame : Frame) (values : FieldValues) (field : TaggedField)
    (encoding : MapEncoding) (tag : Tag) (inside : Content) :
    ReadsInStep (context.strictly.readMap frame values field encoding tag inside)
      (context.leniently.readMap frame values field encoding tag inside) := by
  apply (ReadsInStep.modify _).bind
  intro _
  exact (readsInStep_readEntries context frame.id field encoding inside []).bind fun _ => .pure _

/-! ### Start tags -/

private theorem inStep_withDefault (location : Location) (values : FieldValues) (field : TaggedField) :
    InStep (withDefault location values field) (withDefault location values field) := by
  unfold withDefault
  split
  · split
    · exact .accepted values
    · exact (InStep.same (inStep_coerce _ _ _ _).tolerant).map _
  · exact .accepted values

private theorem inStep_defaultValues (layout : Layout) (location : Location) :
    InStep (defaultValues layout location) (defaultValues layout location) := by
  unfold defaultValues
  generalize [] = values
  induction layout.fields generalizing values with
  | nil => exact .accepted values
  | cons field rest ih =>
      rw [List.foldlM_cons]
      exact (inStep_withDefault location values field).bind ih

private theorem readsInStep_readAttributes (frame : Frame) (tag : Tag) (atRoot : Bool)
    (attributes : List (String × String)) (values : FieldValues) :
    ReadsInStep (context.strictly.readAttributes frame tag atRoot values attributes)
      (context.leniently.readAttributes frame tag atRoot values attributes) := by
  induction attributes generalizing values with
  | nil => exact .pure values
  | cons pair rest ih =>
      obtain ⟨name, raw⟩ := pair
      simp only [Context.readAttributes]
      split
      · cases frame.layout.attributeField? name with
        | none =>
            have lenientEq : (if (context.leniently.strict &&
                context.leniently.schema.strictAttributes) = true then
                  throw (ReadError.unknownAttribute name tag.name frame.location)
                else context.leniently.readAttributes frame tag atRoot values rest) =
                context.leniently.readAttributes frame tag atRoot values rest := rfl
            simp only
            rw [lenientEq]
            split
            · have policy : (ReadError.unknownAttribute name tag.name frame.location).IsPolicy := trivial
              exact .refuse policy (ih values)
            · exact ih values
        | some field =>
            simp only
            cases field.declared.scalarType? with
            | none => exact ih values
            | some type =>
                apply (ReadsInStep.lift (inStep_coerce _ _ _ _)).bind
                intro value
                exact (ReadsInStep.modify _).bind fun _ => ih _
      · exact ih values

private theorem inStep_requireAttributes (frame : Frame) (tag : Tag) :
    InStep (context.strictly.requireAttributes frame tag)
      (context.leniently.requireAttributes frame tag) := by
  have lenientEq : context.leniently.requireAttributes frame tag = .ok () := rfl
  rw [lenientEq]
  unfold Context.requireAttributes
  simp only
  split
  · rename_i field _
    have policy : (ReadError.missingAttribute field.tag tag.name frame.location).IsPolicy := trivial
    exact .refused policy (InStep.tolerant_ok ())
  · exact .accepted ()

private theorem readsInStep_newEntity (location : Location) :
    ReadsInStep (newEntity location) (newEntity location) := by
  intro session
  exact .accepted _

private theorem readsInStep_beginEntity (className : String) (tag : Tag) (atRoot : Bool) :
    ReadsInStep (context.strictly.beginEntity className tag atRoot)
      (context.leniently.beginEntity className tag atRoot) := by
  unfold Context.beginEntity
  have schemaEq : context.strictly.schema = context.leniently.schema := rfl
  rw [schemaEq]
  cases context.leniently.schema.find? className with
  | none => exact .throw id
  | some resolved =>
      simp only
      split
      · exact .throw id
      · apply (readsInStep_newEntity (context.locate tag.position)).bind
        intro id
        apply (ReadsInStep.lift (inStep_defaultValues resolved.layout _)).bind
        intro values
        apply (readsInStep_readAttributes context ⟨id, resolved.layout, context.locate tag.position⟩ tag
          atRoot tag.attributes values).bind
        intro values
        have required := inStep_requireAttributes context
          ⟨id, resolved.layout, context.locate tag.position⟩ tag
        exact (ReadsInStep.lift required).bind fun _ => .pure _

private theorem readsInStep_readContentField (frame : Frame) (values : FieldValues)
    (field : TaggedField)
    (tag : Tag) (inside : Content) :
    ReadsInStep (context.strictly.readContentField frame values field tag inside)
      (context.leniently.readContentField frame values field tag inside) := by
  unfold Context.readContentField
  cases field.declared.scalarType? with
  | none => exact (ReadsInStep.lift (inStep_passContent context inside)).bind fun _ => .pure _
  | some type =>
      apply (ReadsInStep.lift (inStep_scalar context field.declared type tag inside)).bind
      intro value
      exact (ReadsInStep.modify _).bind fun _ => .pure _

/-! ### Entities and their children -/

def ChildrenInStep (strict lenient : ChildReader) : Prop :=
  ∀ frame values, ReadsInStep (strict frame values) (lenient frame values)

def ItemsInStep (strict lenient : ItemsReader) : Prop :=
  ∀ collection type, ReadsInStep (strict collection type) (lenient collection type)

section Readers

variable {children children' : ChildReader} {items items' : ItemsReader}

private theorem readsInStep_entity (className : String) (tag : Tag) (inside : Content) (atRoot : Bool)
    (step : ChildrenInStep children children') :
    ReadsInStep (context.strictly.entity className tag inside atRoot children)
      (context.leniently.entity className tag inside atRoot children') := by
  apply (readsInStep_beginEntity context className tag atRoot).bind
  intro begun
  obtain ⟨frame, values⟩ := begun
  simp only
  cases frame.layout.contentField? with
  | none => exact (step frame values).bind fun _ => .pure _
  | some field =>
      exact (readsInStep_readContentField context frame values field tag inside).bind fun _ => .pure _

private theorem readsInStep_item (field : TaggedField) (type : ItemType) (tag : Tag) (inside : Content)
    (step : ChildrenInStep children children') :
    ReadsInStep (context.strictly.item field type tag inside children)
      (context.leniently.item field type tag inside children') := by
  cases type with
  | entity className => exact (readsInStep_entity context className tag inside false step).map _
  | scalar type => exact .lift (inStep_scalar context field.declared type tag inside)

private theorem readsInStep_recordCollection (id : EntityId) (field : String) (type : ItemType)
    (location : Location) :
    ReadsInStep (recordCollection id field type location)
      (recordCollection id field type location) := by
  unfold recordCollection
  split
  · exact .modify _
  · exact .pure ()

private theorem readsInStep_addItem (id : EntityId) (field : TaggedField) (collection : Collection)
    (type : ItemType) (tag : Tag) (holder value : Value) :
    ReadsInStep (context.strictly.addItem id field collection type tag holder value)
      (context.leniently.addItem id field collection type tag holder value) := by
  unfold Context.addItem
  obtain ⟨pushed, added⟩ := holder.push value
  cases added with
  | none => exact .pure pushed
  | some position =>
      simp only
      split
      · exact (ReadsInStep.modify _).bind fun _ => .pure pushed
      · exact .pure pushed

private theorem inStep_takeTag (field : TaggedField) (seen : List String) (tag : Tag) :
    InStep (context.strictly.takeTag field seen tag) (context.leniently.takeTag field seen tag) := by
  unfold Context.takeTag
  split
  · exact .accepted seen
  · split
    · exact .failed id
    · exact .accepted _

private theorem readsInStep_keepItem (frame : Frame) (values : FieldValues) (field : TaggedField)
    (collection : Collection) (type : ItemType) (tag : Tag) (value : Value) :
    ReadsInStep (context.strictly.keepItem frame values field collection type tag value)
      (context.leniently.keepItem frame values field collection type tag value) := by
  apply (readsInStep_recordCollection frame.id field.name type _).bind
  intro _
  apply (readsInStep_addItem context frame.id field collection type tag _ value).bind
  intro holder
  exact .pure _

private theorem readsInStep_field (frame : Frame) (values : FieldValues) (field : TaggedField)
    (tag : Tag)
    (inside : Content) (childrenStep : ChildrenInStep children children')
    (itemsStep : ItemsInStep items items') :
    ReadsInStep (context.strictly.field frame values field tag inside children items)
      (context.leniently.field frame values field tag inside children' items') := by
  unfold Context.field
  cases field.declared.kind with
  | scalar type =>
      apply (ReadsInStep.lift (inStep_scalar context field.declared type tag inside)).bind
      intro value
      exact (ReadsInStep.modify _).bind fun _ => .pure _
  | one target =>
      exact (readsInStep_entity context target tag inside false childrenStep).bind fun _ => .pure _
  | many collection type wrapped =>
      cases wrapped with
      | true =>
          apply (readsInStep_recordCollection frame.id field.name type _).bind
          intro _
          exact (itemsStep collection type).bind fun _ => .pure _
      | false =>
          apply (readsInStep_item context field type tag inside childrenStep).bind
          intro value
          exact readsInStep_keepItem context frame values field collection type tag value
  | map encoding => exact readsInStep_readMap context frame values field encoding tag inside

end Readers

structure ContentInStep (content : Content) : Prop where
  children : ∀ frame values seen,
    ReadsInStep (context.strictly.readChildren frame values seen content)
      (context.leniently.readChildren frame values seen content)
  items : ∀ id field collection type holder,
    ReadsInStep (context.strictly.readItems id field collection type holder content)
      (context.leniently.readItems id field collection type holder content)

/-- From one token of a content to the next the two reads keep in step, until the strict one
refuses. -/
private theorem contentInStep (content : Content) : ContentInStep context content := by
  -- Both loops together: what is in a child is read by the one or the other.
  induction content with
  | closed encoding =>
      constructor
      · intro frame values seen
        exact .pure values
      · intro id field collection type holder
        exact .pure holder
  | broken ending =>
      constructor
      · intro frame values seen
        exact .throw (breakError_ordinary context ending)
      · intro id field collection type holder
        exact .throw (breakError_ordinary context ending)
  | text position text rest ih =>
      have passed := ReadsInStep.lift (inStep_passText context position text)
      constructor
      · intro frame values seen
        exact passed.bind fun _ => ih.children frame values seen
      · intro id field collection type holder
        exact passed.bind fun _ => ih.items id field collection type holder
  | element tag inside rest ihInside ihRest =>
      have unknown := ReadsInStep.lift (inStep_passElement context tag inside)
      constructor
      · intro frame values seen
        simp only [Context.readChildren]
        cases frame.layout.elementField? tag.name with
        | none => exact unknown.bind fun _ => ihRest.children frame values seen
        | some field =>
            apply (ReadsInStep.lift (inStep_takeTag context field seen tag)).bind
            intro seen
            have step := readsInStep_field context frame values field tag inside
              (fun inner values => ihInside.children inner values [])
              (fun collection type => ihInside.items frame.id field collection type
                (.collection collection []))
            exact step.bind fun values => ihRest.children frame values seen
      · intro id field collection type holder
        simp only [Context.readItems]
        split
        · have item := readsInStep_item context field type tag inside
            (fun inner values => ihInside.children inner values [])
          apply item.bind
          intro value
          apply (readsInStep_addItem context id field collection type tag holder value).bind
          intro holder
          exact ihRest.items id field collection type holder
        · exact unknown.bind fun _ => ihRest.items id field collection type holder

private theorem readsInStep_readEntity (className : String) (tag : Tag) (inside : Content)
    (atRoot : Bool) :
    ReadsInStep (context.strictly.readEntity className tag inside atRoot)
      (context.leniently.readEntity className tag inside atRoot) :=
  readsInStep_entity context className tag inside atRoot fun frame values =>
    (contentInStep context inside).children frame values []

/-! ### Documents -/

private theorem inStep_readDocument (className : String) (document : Document) :
    InStep (context.strictly.readDocument className document)
      (context.leniently.readDocument className document) := by
  unfold Context.readDocument
  have layoutEq : context.strictly.schema.layout? className = context.schema.layout? className := rfl
  have layoutEq' : context.leniently.schema.layout? className = context.schema.layout? className := rfl
  rw [layoutEq, layoutEq']
  cases context.schema.layout? className with
  | none => exact .failed id
  | some layout =>
      cases document with
      | empty ending =>
          cases ending with
          | failed error => exact .failed id
          | finished first again encoding => exact .failed id
      | rooted tag inside =>
          have entityStep := readsInStep_readEntity context className tag inside true .initial
          have lenientEq : (context.leniently.strict && decide (tag.name ≠ layout.tag)) = false := rfl
          simp only [lenientEq]
          split
          · have policy : (ReadError.unexpectedRoot layout.tag tag.name
                (context.locate tag.position)).IsPolicy := trivial
            have step := entityStep.bind fun found => InStep.accepted (α := ObjectGraph) {
              root := found.1
              encoding := inside.encoding?.getD Markup.defaultEncoding
              locations := if context.schema.tracksLocations then some found.2.locations else none }
            exact .refused policy step.tolerant
          · exact entityStep.bind fun found => .accepted _

/-- A strict and a lenient read of one document end in exactly one of three ways: both succeed with
the same graph, both fail with the same error, or the strict one fails with an error of
strictness. -/
theorem strict_and_lenient_in_step (reader : Reader) (className document : String)
    (source : Option Source) :
    let strict := (reader.withStrict true).readAs className document source
    let lenient := (reader.withStrict false).readAs className document source
    let accepted := ∃ graph, strict = .ok graph ∧ lenient = .ok graph
    let failed := ∃ error, strict = .error error ∧ lenient = .error error
    let refused := ∃ error, strict = .error error ∧ error.IsPolicy
    (accepted ∨ failed ∨ refused) ∧ ¬ (accepted ∧ failed) ∧ ¬ (accepted ∧ refused) ∧
      ¬ (failed ∧ refused) := by
  let context : Context :=
    ⟨reader.schema, true, if reader.schema.tracksSources then source else none⟩
  exact (inStep_readDocument context className (.parse reader.options.extended document)).exactly_one

end Trellis.Reading
