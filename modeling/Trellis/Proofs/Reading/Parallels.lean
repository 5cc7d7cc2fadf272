import Trellis.Proofs.Markup.Twins
import Trellis.Proofs.Reading.Runs
import Trellis.Reading.Reader

/-!
Reads of the same things in other places.

Where things stand has no influence on what is read.  Of two documents that are alike up to places,
both reads find the same values and give out the same identities, or both end with the same error;
what they record, they record in the same order under the same keys, each at the place of its own
document.
-/

namespace Trellis.Reading

open Trellis.Graph (Entity Tree Value)
open Markup (Content Document Ending Tag)
open Schema (Collection Field ItemType Layout MapEncoding ScalarType TaggedField)

/-! ### Errors, places and outcomes -/

def ReadError.relocated (location : Location) : ReadError → ReadError
  | .unexpectedRoot expected found _ => .unexpectedRoot expected found location
  | .noElement expected _ => .noElement expected location
  | .duplicateElement tag _ => .duplicateElement tag location
  | .unknownElement tag _ => .unknownElement tag location
  | .unknownAttribute name tag _ => .unknownAttribute name tag location
  | .coercion field expected text _ => .coercion field expected text location
  | .missingAttribute name tag _ => .missingAttribute name tag location
  | .unexpectedText _ => .unexpectedText location
  | .unexpectedElement tag _ => .unexpectedElement tag location
  | .unexpectedEnd _ => .unexpectedEnd location
  | error => error

section Relations

variable (near : Location → Location → Prop)

inductive ReadError.Alike : ReadError → ReadError → Prop
  | unplaced {error : ReadError} (nowhere : error.location? = none) : Alike error error
  | placed (error : ReadError) {location location' : Location}
      (somewhere : error.location? = some location) (there : near location location') :
      Alike error (error.relocated location')

/-- Two reads come to values that belong together, or to the same error. -/
inductive Parallel {α : Type} (same : α → α → Prop) :
    Except ReadError α → Except ReadError α → Prop
  | found {value value' : α} (values : same value value') : Parallel same (.ok value) (.ok value')
  | failed {error error' : ReadError} (errors : error.Alike near error') :
      Parallel same (.error error) (.error error')

def Recorded {κ : Type} (entry entry' : κ × Location) : Prop :=
  entry'.1 = entry.1 ∧ near entry.2 entry'.2

/-- The same things recorded in the same order, at places that belong together. -/
structure LocationMap.Alike (map map' : LocationMap) : Prop where
  entities : List.Forall₂ (Recorded near) map.entities map'.entities
  fields : List.Forall₂ (Recorded near) map.fields map'.fields
  entries : List.Forall₂ (Recorded near) map.entries map'.entries

structure Session.Alike (session session' : Session) : Prop where
  nextId_eq : session'.nextId = session.nextId
  locations : LocationMap.Alike near session.locations session'.locations

def ReadsParallel {α : Type} (same : α → α → Prop) (read read' : Read α) : Prop :=
  ∀ session session', session.Alike near session' →
    Parallel near (fun found found' => same found.1 found'.1 ∧ found.2.Alike near found'.2)
      (read session) (read' session')

structure Frame.Alike (frame frame' : Frame) : Prop where
  id_eq : frame'.id = frame.id
  layout_eq : frame'.layout = frame.layout
  location : near frame.location frame'.location

end Relations

variable {near : Location → Location → Prop}

namespace Parallel

variable {α β : Type} {same : α → α → Prop} {outcome outcome' : Except ReadError α}

theorem bind {next next' : α → Except ReadError β} {later : β → β → Prop}
    (first : Parallel near same outcome outcome')
    (second : ∀ value value', same value value' → Parallel near later (next value) (next' value')) :
    Parallel near later (outcome >>= next) (outcome' >>= next') := by
  cases first with
  | found values => exact second _ _ values
  | failed errors => exact .failed errors

theorem map {f f' : α → β} {later : β → β → Prop} (first : Parallel near same outcome outcome')
    (carries : ∀ value value', same value value' → later (f value) (f' value')) :
    Parallel near later (f <$> outcome) (f' <$> outcome') := by
  cases first with
  | found values => exact .found (carries _ _ values)
  | failed errors => exact .failed errors

theorem placed (error : ReadError) {location location' : Location}
    (somewhere : error.location? = some location) (there : near location location') :
    Parallel near same (.error error) (.error (error.relocated location')) :=
  .failed (.placed error somewhere there)

end Parallel

private theorem lookup_isSome_of_recorded {κ : Type} [BEq κ] {map map' : List (κ × Location)}
    (alike : List.Forall₂ (Recorded near) map map') (key : κ) :
    (map'.lookup key).isSome = (map.lookup key).isSome := by
  induction alike with
  | nil => rfl
  | @cons entry entry' rest rest' here _ ih =>
      obtain ⟨name, location⟩ := entry
      obtain ⟨name', location'⟩ := entry'
      obtain ⟨sameName, _⟩ := here
      have sameName : name' = name := sameName
      rw [List.lookup_cons, List.lookup_cons, sameName]
      cases key == name with
      | true => rfl
      | false => exact ih

namespace LocationMap.Alike

variable {map map' : LocationMap} {location location' : Location}

theorem setEntity (alike : LocationMap.Alike near map map') (id : EntityId)
    (there : near location location') :
    LocationMap.Alike near (map.setEntity id location) (map'.setEntity id location') :=
  ⟨.cons ⟨rfl, there⟩ alike.entities, alike.fields, alike.entries⟩

theorem setField (alike : LocationMap.Alike near map map') (id : EntityId) (field : String)
    (there : near location location') :
    LocationMap.Alike near (map.setField id field location) (map'.setField id field location') := by
  have known : (map'.fieldPlace? id field).isSome = (map.fieldPlace? id field).isSome :=
    lookup_isSome_of_recorded alike.fields (id, field)
  unfold LocationMap.setField
  rw [known]
  split
  · exact alike
  · exact ⟨alike.entities, .cons ⟨rfl, there⟩ alike.fields, alike.entries⟩

theorem setEntry (alike : LocationMap.Alike near map map') (id : EntityId) (field : String)
    (key : EntryKey) (there : near location location') :
    LocationMap.Alike near (map.setEntry id field key location) (map'.setEntry id field key location') :=
  ⟨alike.entities, alike.fields, .cons ⟨rfl, there⟩ alike.entries⟩

theorem imp {near' : Location → Location → Prop} (alike : LocationMap.Alike near map map')
    (implies : ∀ location location', near location location' → near' location location') :
    LocationMap.Alike near' map map' :=
  ⟨alike.entities.imp fun _ _ both => ⟨both.1, implies _ _ both.2⟩,
    alike.fields.imp fun _ _ both => ⟨both.1, implies _ _ both.2⟩,
    alike.entries.imp fun _ _ both => ⟨both.1, implies _ _ both.2⟩⟩

end LocationMap.Alike

theorem ReadError.Alike.imp {near' : Location → Location → Prop} {error error' : ReadError}
    (alike : error.Alike near error')
    (implies : ∀ location location', near location location' → near' location location') :
    error.Alike near' error' := by
  cases alike with
  | unplaced nowhere => exact .unplaced nowhere
  | placed somewhere there => exact .placed error somewhere (implies _ _ there)

namespace ReadsParallel

variable {α β : Type} {same : α → α → Prop} {read read' : Read α}

theorem pure {value value' : α} (values : same value value') :
    ReadsParallel near same (pure value) (pure value') :=
  fun _ _ sessions => .found ⟨values, sessions⟩

theorem bind {next next' : α → Read β} {later : β → β → Prop}
    (first : ReadsParallel near same read read')
    (second : ∀ value value', same value value' →
      ReadsParallel near later (next value) (next' value')) :
    ReadsParallel near later (read >>= next) (read' >>= next') := by
  intro session session' sessions
  exact (first session session' sessions).bind fun found found' both =>
    second found.1 found'.1 both.1 found.2 found'.2 both.2

theorem andThen {next next' : α → Read β} {later : β → β → Prop}
    (first : ReadsParallel near Eq read read')
    (second : ∀ value, ReadsParallel near later (next value) (next' value)) :
    ReadsParallel near later (read >>= next) (read' >>= next') := by
  apply first.bind
  intro value value' valueEq
  rw [← valueEq]
  exact second value

theorem map (f : α → β) (first : ReadsParallel near Eq read read') :
    ReadsParallel near Eq (f <$> read) (f <$> read') := by
  rw [← bind_pure_comp, ← bind_pure_comp]
  exact first.andThen fun value => .pure rfl

theorem lift {outcome outcome' : Except ReadError α} (parallel : Parallel near same outcome outcome') :
    ReadsParallel near same (liftM outcome) (liftM outcome') := by
  intro session session' sessions
  exact parallel.bind fun value value' values => .found ⟨values, sessions⟩

theorem throw {error error' : ReadError} (errors : error.Alike near error') :
    ReadsParallel near same (MonadExcept.throw error) (MonadExcept.throw error') :=
  fun _ _ _ => .failed errors

theorem recordField (id : EntityId) (field : String) {location location' : Location}
    (there : near location location') :
    ReadsParallel near Eq (recordField id field location) (Reading.recordField id field location') :=
  fun _ _ sessions =>
    .found ⟨rfl, sessions.nextId_eq, sessions.locations.setField id field there⟩

theorem recordEntry (id : EntityId) (field : String) (key : EntryKey) {location location' : Location}
    (there : near location location') :
    ReadsParallel near Eq (recordEntry id field key location)
      (Reading.recordEntry id field key location') :=
  fun _ _ sessions =>
    .found ⟨rfl, sessions.nextId_eq, sessions.locations.setEntry id field key there⟩

theorem newEntity {location location' : Location} (there : near location location') :
    ReadsParallel near Eq (newEntity location) (Reading.newEntity location') := by
  intro session session' sessions
  have idEq := sessions.nextId_eq
  have recorded := sessions.locations.setEntity ⟨session.nextId⟩ there
  refine .found ⟨?_, ?_, ?_⟩
  · exact congrArg EntityId.mk idEq.symm
  · exact congrArg (· + 1) idEq
  · simp only [idEq]
    exact recorded

end ReadsParallel

/-! ### Contexts -/

/-- What a read makes of places: which trackers the schema names, and the provenance. -/
structure View where
  locationTracker : Option String
  sourceTracker : Option String
  source : Option Source

def Context.under (context : Context) (view : View) : Context :=
  { context with
    schema := { context.schema with
      locationTracker := view.locationTracker, sourceTracker := view.sourceTracker }
    source := view.source }

def Near (place : Position → Position → Prop) (context context' : Context)
    (location location' : Location) : Prop :=
  ∃ position position', place position position' ∧ location = context.locate position ∧
    location' = context'.locate position'

variable {place : Position → Position → Prop} {context : Context} {view : View}

abbrev OutcomesParallel {α : Type} (place : Position → Position → Prop) (context : Context)
    (view : View) (outcome outcome' : Except ReadError α) : Prop :=
  Parallel (Near place context (context.under view)) Eq outcome outcome'

private theorem near_locate (context : Context) (view : View) {position position' : Position}
    (places : place position position') :
    Near place context (context.under view) (context.locate position)
      ((context.under view).locate position') :=
  ⟨position, position', places, rfl, rfl⟩

/-! ### Passing over, and reading without classes -/

private theorem breakError_alike {ending ending' : Ending} (alike : ending.Alike place ending') :
    (context.breakError ending).Alike (Near place context (context.under view))
      ((context.under view).breakError ending') := by
  cases alike with
  | finished firstPlace _ _ =>
      exact .placed (.unexpectedEnd _) rfl (near_locate context view firstPlace)
  | failed error => exact .unplaced rfl

private theorem parallel_passContent {inside inside' : Content} (alike : inside.Alike place inside') :
    OutcomesParallel place context view (context.passContent inside)
      ((context.under view).passContent inside') := by
  unfold Context.passContent
  induction alike with
  | closed encoding => exact .found rfl
  | broken endings => exact .failed (breakError_alike endings)
  | text _ _ _ ih => exact ih
  | element _ _ _ _ ih => exact ih

private theorem parallel_passText (context : Context) (view : View) {position position' : Position}
    (places : place position position') (text : String) :
    OutcomesParallel place context view (context.passText position text)
      ((context.under view).passText position' text) := by
  have strictEq : (context.under view).strict = context.strict := rfl
  unfold Context.passText
  rw [strictEq]
  split
  · exact .placed (.unexpectedText _) rfl (near_locate context view places)
  · exact .found rfl

private theorem parallel_passElement (context : Context) (view : View) {tag tag' : Tag}
    {inside inside' : Content} (tags : tag.Alike place tag') (alike : inside.Alike place inside') :
    OutcomesParallel place context view (context.passElement tag inside)
      ((context.under view).passElement tag' inside') := by
  have strictEq : (context.under view).strict = context.strict := rfl
  unfold Context.passElement
  rw [strictEq, tags.name_eq]
  split
  · exact .placed (.unknownElement _ _) rfl (near_locate context view tags.position)
  · exact parallel_passContent alike

private theorem parallel_textOf {content content' : Content} (alike : content.Alike place content') :
    OutcomesParallel place context view (context.textOf content)
      ((context.under view).textOf content') := by
  induction alike with
  | closed encoding => exact .found rfl
  | broken endings => exact .failed (breakError_alike endings)
  | text _ text _ ih => exact ih.map fun _ _ same => congrArg (text ++ ·) same
  | element tags _ _ _ _ =>
      simp only [Context.textOf, tags.name_eq]
      exact .placed (.unexpectedElement _ _) rfl (near_locate context view tags.position)

private theorem parallel_partsOf {content content' : Content} (alike : content.Alike place content') :
    OutcomesParallel place context view (context.partsOf content)
      ((context.under view).partsOf content') := by
  induction alike with
  | closed encoding => exact .found rfl
  | broken endings => exact .failed (breakError_alike endings)
  | text _ text _ ih =>
      apply ih.bind
      rintro found _ rfl
      exact .found rfl
  | element tags _ _ ihInside ihRest =>
      apply ihInside.bind
      rintro inner _ rfl
      apply ihRest.bind
      rintro found _ rfl
      simp only [treeOfParts, tags.name_eq, tags.attributes_eq]
      exact .found rfl

private theorem parallel_treeOf {tag tag' : Tag} {inside inside' : Content}
    (tags : tag.Alike place tag')
    (alike : inside.Alike place inside') :
    OutcomesParallel place context view (context.treeOf tag inside)
      ((context.under view).treeOf tag' inside') := by
  apply (parallel_partsOf alike).bind
  rintro found _ rfl
  simp only [treeOfParts, tags.name_eq, tags.attributes_eq]
  exact .found rfl

private theorem parallel_coerce (strict : Bool) (field : Field) (type : ScalarType) (raw : String)
    {location location' : Location} (there : near location location') :
    Parallel near Eq (coerce strict field type raw location)
      (coerce strict field type raw location') := by
  simp only [coerce]
  split
  · exact .found rfl
  · exact .placed (.coercion _ _ _ _) rfl there

private theorem parallel_scalar (field : Field) (type : ScalarType) {tag tag' : Tag}
    {inside inside' : Content} (tags : tag.Alike place tag') (alike : inside.Alike place inside') :
    OutcomesParallel place context view (context.scalar field type tag inside)
      ((context.under view).scalar field type tag' inside') := by
  have textual : OutcomesParallel place context view
      (context.textOf inside >>= fun text =>
        coerce context.strict field type text (context.locate tag.position))
      ((context.under view).textOf inside' >>= fun text =>
        coerce context.strict field type text ((context.under view).locate tag'.position)) := by
    apply (parallel_textOf alike).bind
    rintro text _ rfl
    exact parallel_coerce _ field type text (near_locate context view tags.position)
  cases type with
  | tree => exact (parallel_treeOf tags alike).map fun _ _ same => congrArg Value.tree same
  | _ => exact textual

/-! ### Maps -/

structure EntryParts.Alike (place : Position → Position → Prop) (parts parts' : EntryParts) : Prop where
  key_eq : parts'.key = parts.key
  value_eq : parts'.value = parts.value
  position : Option.Rel place parts.position parts'.position

theorem EntryParts.Alike.position_getD {parts parts' : EntryParts} (both : parts.Alike place parts')
    {position position' : Position} (places : place position position') :
    place (parts.position.getD position) (parts'.position.getD position') := by
  obtain ⟨key, value, here⟩ := parts
  obtain ⟨key', value', here'⟩ := parts'
  cases both.position with
  | none => exact places
  | some there => exact there

private theorem parallel_entryPart (field : Field) {parts parts' : EntryParts} {tag tag' : Tag}
    {inside inside' : Content} (both : parts.Alike place parts') (tags : tag.Alike place tag')
    (alike : inside.Alike place inside') :
    Parallel (Near place context (context.under view)) (EntryParts.Alike place)
      (context.entryPart field parts tag inside)
      ((context.under view).entryPart field parts' tag' inside') := by
  unfold Context.entryPart
  rw [tags.name_eq]
  split
  · apply (parallel_textOf alike).bind
    rintro text _ rfl
    exact .found ⟨rfl, both.value_eq, both.position⟩
  · split
    · apply (parallel_textOf alike).bind
      rintro text _ rfl
      exact .found ⟨both.key_eq, rfl, .some tags.position⟩
    · exact (parallel_passContent alike).bind fun _ _ _ => .found both

private theorem parallel_entryParts (field : Field) {content content' : Content}
    (alike : content.Alike place content') {parts parts' : EntryParts}
    (both : parts.Alike place parts') :
    Parallel (Near place context (context.under view)) (EntryParts.Alike place)
      (context.entryParts field parts content)
      ((context.under view).entryParts field parts' content') := by
  induction alike generalizing parts parts' with
  | closed encoding => exact .found both
  | broken endings => exact .failed (breakError_alike endings)
  | text here text _ ih => exact (parallel_passText context view here text).bind fun _ _ _ => ih both
  | element tags within _ _ ihRest =>
      exact (parallel_entryPart field both tags within).bind fun _ _ both => ihRest both

abbrev ReadsAlike {α : Type} (place : Position → Position → Prop) (context : Context) (view : View)
    (read read' : Read α) : Prop :=
  ReadsParallel (Near place context (context.under view)) Eq read read'

private theorem parallel_readEntry (id : EntityId) (field : TaggedField) (encoding : MapEncoding)
    (entries : OrderedMap String String) {tag tag' : Tag} {inside inside' : Content}
    (tags : tag.Alike place tag') (alike : inside.Alike place inside') :
    ReadsAlike place context view (context.readEntry id field encoding entries tag inside)
      ((context.under view).readEntry id field encoding entries tag' inside') := by
  cases encoding with
  | inline =>
      simp only [Context.readEntry, tags.name_eq]
      apply (ReadsParallel.lift (parallel_textOf alike)).andThen
      intro text
      exact (ReadsParallel.recordEntry _ _ _ (near_locate context view tags.position)).andThen
        fun _ => .pure rfl
  | explode =>
      simp only [Context.readEntry, tags.name_eq]
      split
      · have begun : EntryParts.Alike place {} {} := ⟨rfl, rfl, .none⟩
        apply (ReadsParallel.lift (parallel_entryParts field.declared alike begun)).bind
        intro parts parts' both
        rw [both.key_eq, both.value_eq]
        have there := both.position_getD tags.position
        exact (ReadsParallel.recordEntry _ _ _ (near_locate context view there)).andThen
          fun _ => .pure rfl
      · exact (ReadsParallel.lift (parallel_passElement context view tags alike)).andThen
          fun _ => .pure rfl

private theorem parallel_readEntries (id : EntityId) (field : TaggedField) (encoding : MapEncoding)
    {content content' : Content} (alike : content.Alike place content')
    (entries : OrderedMap String String) :
    ReadsAlike place context view (context.readEntries id field encoding entries content)
      ((context.under view).readEntries id field encoding entries content') := by
  induction alike generalizing entries with
  | closed encoding => exact .pure rfl
  | broken endings => exact .throw (breakError_alike endings)
  | text here text _ ih =>
      exact (ReadsParallel.lift (parallel_passText context view here text)).andThen fun _ => ih entries
  | element tags within _ _ ihRest =>
      exact (parallel_readEntry id field encoding entries tags within).andThen ihRest

private theorem parallel_readMap {frame frame' : Frame}
    (frames : frame.Alike (Near place context (context.under view)) frame') (values : FieldValues)
    (field : TaggedField) (encoding : MapEncoding) {tag tag' : Tag} {inside inside' : Content}
    (tags : tag.Alike place tag') (alike : inside.Alike place inside') :
    ReadsAlike place context view (context.readMap frame values field encoding tag inside)
      ((context.under view).readMap frame' values field encoding tag' inside') := by
  unfold Context.readMap
  rw [frames.id_eq]
  apply (ReadsParallel.recordField _ _ (near_locate context view tags.position)).andThen
  intro _
  exact (parallel_readEntries frame.id field encoding alike []).andThen fun _ => .pure rfl

/-! ### Start tags -/

private theorem parallel_withDefault {location location' : Location} (there : near location location')
    (values : FieldValues) (field : TaggedField) :
    Parallel near Eq (withDefault location values field) (withDefault location' values field) := by
  unfold withDefault
  split
  · split
    · exact .found rfl
    · exact (parallel_coerce _ _ _ _ there).map fun _ _ same => congrArg (values.set field.name) same
  · exact .found rfl

private theorem parallel_defaultValues (layout : Layout) {location location' : Location}
    (there : near location location') :
    Parallel near Eq (defaultValues layout location) (defaultValues layout location') := by
  unfold defaultValues
  generalize ([] : FieldValues) = values
  induction layout.fields generalizing values with
  | nil => exact .found rfl
  | cons field rest ih =>
      rw [List.foldlM_cons, List.foldlM_cons]
      apply (parallel_withDefault there values field).bind
      rintro values _ rfl
      exact ih values

private theorem parallel_readAttributes {frame frame' : Frame}
    (frames : frame.Alike (Near place context (context.under view)) frame') {tag tag' : Tag}
    (tags : tag.Alike place tag') (atRoot : Bool) (attributes : List (String × String))
    (values : FieldValues) :
    ReadsAlike place context view (context.readAttributes frame tag atRoot values attributes)
      ((context.under view).readAttributes frame' tag' atRoot values attributes) := by
  have strictEq : (context.under view).strict = context.strict := rfl
  have attributesEq : (context.under view).schema.strictAttributes = context.schema.strictAttributes :=
    rfl
  induction attributes generalizing values with
  | nil => exact .pure rfl
  | cons pair rest ih =>
      obtain ⟨name, raw⟩ := pair
      simp only [Context.readAttributes, frames.layout_eq, frames.id_eq, tags.name_eq, strictEq,
        attributesEq]
      split
      · cases frame.layout.attributeField? name with
        | none =>
            simp only
            split
            · exact .throw (.placed (.unknownAttribute _ _ _) rfl frames.location)
            · exact ih values
        | some field =>
            simp only
            cases field.declared.scalarType? with
            | none => exact ih values
            | some type =>
                apply (ReadsParallel.lift (parallel_coerce _ _ _ _ frames.location)).andThen
                intro value
                exact (ReadsParallel.recordField _ _ frames.location).andThen fun _ => ih _
      · exact ih values

private theorem parallel_requireAttributes {frame frame' : Frame}
    (frames : frame.Alike (Near place context (context.under view)) frame') {tag tag' : Tag}
    (tags : tag.Alike place tag') :
    OutcomesParallel place context view (context.requireAttributes frame tag)
      ((context.under view).requireAttributes frame' tag') := by
  have strictEq : (context.under view).strict = context.strict := rfl
  simp only [Context.requireAttributes, strictEq, frames.layout_eq, tags.name_eq, tags.attributes_eq]
  split
  · exact .placed (.missingAttribute _ _ _) rfl frames.location
  · exact .found rfl

def Begun.Alike (near : Location → Location → Prop) (begun begun' : Frame × FieldValues) : Prop :=
  begun.1.Alike near begun'.1 ∧ begun'.2 = begun.2

private theorem parallel_beginEntity (className : String) {tag tag' : Tag} (tags : tag.Alike place tag')
    (atRoot : Bool) :
    ReadsParallel (Near place context (context.under view))
      (Begun.Alike (Near place context (context.under view)))
      (context.beginEntity className tag atRoot)
      ((context.under view).beginEntity className tag' atRoot) := by
  have schemaEq : (context.under view).schema.find? className = context.schema.find? className := rfl
  have here := near_locate context view tags.position
  unfold Context.beginEntity
  rw [schemaEq]
  cases context.schema.find? className with
  | none => exact .throw (.unplaced rfl)
  | some resolved =>
      simp only
      split
      · exact .throw (.unplaced rfl)
      · apply (ReadsParallel.newEntity here).andThen
        intro id
        have frames : Frame.Alike (Near place context (context.under view))
            ⟨id, resolved.layout, context.locate tag.position⟩
            ⟨id, resolved.layout, (context.under view).locate tag'.position⟩ := ⟨rfl, rfl, here⟩
        apply (ReadsParallel.lift (parallel_defaultValues resolved.layout here)).andThen
        intro values
        rw [tags.attributes_eq]
        apply (parallel_readAttributes frames tags atRoot tag.attributes values).andThen
        intro values
        exact (ReadsParallel.lift (parallel_requireAttributes frames tags)).andThen fun _ =>
          .pure ⟨frames, rfl⟩

private theorem parallel_readContentField {frame frame' : Frame}
    (frames : frame.Alike (Near place context (context.under view)) frame') (values : FieldValues)
    (field : TaggedField) {tag tag' : Tag} {inside inside' : Content} (tags : tag.Alike place tag')
    (alike : inside.Alike place inside') :
    ReadsAlike place context view (context.readContentField frame values field tag inside)
      ((context.under view).readContentField frame' values field tag' inside') := by
  unfold Context.readContentField
  cases field.declared.scalarType? with
  | none => exact (ReadsParallel.lift (parallel_passContent alike)).andThen fun _ => .pure rfl
  | some type =>
      rw [frames.id_eq]
      apply (ReadsParallel.lift (parallel_scalar field.declared type tags alike)).andThen
      intro value
      exact (ReadsParallel.recordField _ _ frames.location).andThen fun _ => .pure rfl

/-! ### Entities and their children -/

def ChildrenAlike (place : Position → Position → Prop) (context : Context) (view : View)
    (children children' : ChildReader) : Prop :=
  ∀ frame frame', frame.Alike (Near place context (context.under view)) frame' → ∀ values,
    ReadsAlike place context view (children frame values) (children' frame' values)

section Readers

variable {children children' : ChildReader} {items items' : ItemsReader} {tag tag' : Tag}
  {inside inside' : Content} (tags : tag.Alike place tag') (alike : inside.Alike place inside')
include tags

section

variable (below : ChildrenAlike place context view children children')
include below alike

private theorem parallel_entity (className : String) (atRoot : Bool) :
    ReadsAlike place context view (context.entity className tag inside atRoot children)
      ((context.under view).entity className tag' inside' atRoot children') := by
  apply (parallel_beginEntity className tags atRoot).bind
  intro begun begun' both
  obtain ⟨frame, values⟩ := begun
  obtain ⟨frame', values'⟩ := begun'
  have frames : frame.Alike (Near place context (context.under view)) frame' := both.1
  have valuesEq : values' = values := both.2
  simp only [valuesEq, frames.layout_eq, frames.id_eq]
  cases frame.layout.contentField? with
  | none => exact (below frame frame' frames values).andThen fun _ => .pure rfl
  | some field =>
      exact (parallel_readContentField frames values field tags alike).andThen fun _ => .pure rfl

private theorem parallel_item (field : TaggedField) (type : ItemType) :
    ReadsAlike place context view (context.item field type tag inside children)
      ((context.under view).item field type tag' inside' children') := by
  cases type with
  | entity className => exact (parallel_entity tags alike below className false).map _
  | scalar type => exact .lift (parallel_scalar field.declared type tags alike)

end

private theorem parallel_recordCollection (id : EntityId) (field : String) (type : ItemType) :
    ReadsAlike place context view (recordCollection id field type (context.locate tag.position))
      (recordCollection id field type ((context.under view).locate tag'.position)) := by
  unfold recordCollection
  split
  · exact .recordField _ _ (near_locate context view tags.position)
  · exact .pure rfl

private theorem parallel_addItem (id : EntityId) (field : TaggedField) (collection : Collection)
    (type : ItemType) (holder value : Value) :
    ReadsAlike place context view (context.addItem id field collection type tag holder value)
      ((context.under view).addItem id field collection type tag' holder value) := by
  unfold Context.addItem
  obtain ⟨pushed, added⟩ := holder.push value
  cases added with
  | none => exact .pure rfl
  | some position =>
      simp only
      split
      · exact (ReadsParallel.recordEntry _ _ _ (near_locate context view tags.position)).andThen
          fun _ => .pure rfl
      · exact .pure rfl

private theorem parallel_takeTag (field : TaggedField) (seen : List String) :
    OutcomesParallel place context view (context.takeTag field seen tag)
      ((context.under view).takeTag field seen tag') := by
  unfold Context.takeTag
  rw [tags.name_eq]
  split
  · exact .found rfl
  · split
    · exact .placed (.duplicateElement _ _) rfl (near_locate context view tags.position)
    · exact .found rfl

private theorem parallel_keepItem {frame frame' : Frame}
    (frames : frame.Alike (Near place context (context.under view)) frame') (values : FieldValues)
    (field : TaggedField) (collection : Collection) (type : ItemType) (value : Value) :
    ReadsAlike place context view (context.keepItem frame values field collection type tag value)
      ((context.under view).keepItem frame' values field collection type tag' value) := by
  unfold Context.keepItem
  rw [frames.id_eq]
  apply (parallel_recordCollection tags frame.id field.name type).andThen
  intro _
  exact (parallel_addItem tags frame.id field collection type _ value).andThen fun _ => .pure rfl

include alike

private theorem parallel_field {frame frame' : Frame}
    (frames : frame.Alike (Near place context (context.under view)) frame') (values : FieldValues)
    (field : TaggedField) (below : ChildrenAlike place context view children children')
    (itemsBelow : ∀ collection type,
      ReadsAlike place context view (items collection type) (items' collection type)) :
    ReadsAlike place context view (context.field frame values field tag inside children items)
      ((context.under view).field frame' values field tag' inside' children' items') := by
  unfold Context.field
  cases field.declared.kind with
  | scalar type =>
      simp only [frames.id_eq]
      apply (ReadsParallel.lift (parallel_scalar field.declared type tags alike)).andThen
      intro value
      exact (ReadsParallel.recordField _ _ (near_locate context view tags.position)).andThen
        fun _ => .pure rfl
  | one target =>
      exact (parallel_entity tags alike below target false).andThen fun _ => .pure rfl
  | many collection type wrapped =>
      cases wrapped with
      | true =>
          simp only [Context.wrapped, frames.id_eq]
          apply (parallel_recordCollection tags frame.id field.name type).andThen
          intro _
          exact (itemsBelow collection type).andThen fun _ => .pure rfl
      | false =>
          apply (parallel_item tags alike below field type).andThen
          intro value
          exact parallel_keepItem tags frames values field collection type value
  | map encoding => exact parallel_readMap frames values field encoding tags alike

end Readers

structure ContentParallel (place : Position → Position → Prop) (context : Context) (view : View)
    (content content' : Content) : Prop where
  children : ∀ frame frame', frame.Alike (Near place context (context.under view)) frame' →
    ∀ values seen,
      ReadsAlike place context view (context.readChildren frame values seen content)
        ((context.under view).readChildren frame' values seen content')
  items : ∀ id field collection type holder,
    ReadsAlike place context view (context.readItems id field collection type holder content)
      ((context.under view).readItems id field collection type holder content')

private theorem contentParallel (context : Context) (view : View) {content content' : Content}
    (alike : content.Alike place content') : ContentParallel place context view content content' := by
  -- Both loops together: what is in a child is read by the one or the other.
  induction alike with
  | closed encoding =>
      constructor
      · intro frame frame' frames values seen
        exact .pure rfl
      · intro id field collection type holder
        exact .pure rfl
  | broken endings =>
      constructor
      · intro frame frame' frames values seen
        exact .throw (breakError_alike endings)
      · intro id field collection type holder
        exact .throw (breakError_alike endings)
  | text here text _ ih =>
      have passed := ReadsParallel.lift (parallel_passText context view here text)
      constructor
      · intro frame frame' frames values seen
        exact passed.andThen fun _ => ih.children frame frame' frames values seen
      · intro id field collection type holder
        exact passed.andThen fun _ => ih.items id field collection type holder
  | @element tag tag' inside inside' rest rest' tags within _ ihInside ihRest =>
      have unknown := ReadsParallel.lift (parallel_passElement context view tags within)
      constructor
      · intro frame frame' frames values seen
        simp only [Context.readChildren, frames.layout_eq, tags.name_eq, frames.id_eq]
        cases frame.layout.elementField? tag.name with
        | none => exact unknown.andThen fun _ => ihRest.children frame frame' frames values seen
        | some field =>
            apply (ReadsParallel.lift (parallel_takeTag tags field seen)).andThen
            intro seen
            have step := parallel_field tags within frames values field
              (fun inner inner' inners values => ihInside.children inner inner' inners values [])
              (fun collection type => ihInside.items frame.id field collection type
                (.collection collection []))
            exact step.andThen fun values => ihRest.children frame frame' frames values seen
      · intro id field collection type holder
        simp only [Context.readItems, tags.name_eq]
        split
        · have item := parallel_item tags within
            (fun inner inner' inners values => ihInside.children inner inner' inners values []) field type
          apply item.andThen
          intro value
          apply (parallel_addItem tags id field collection type holder value).andThen
          intro holder
          exact ihRest.items id field collection type holder
        · exact unknown.andThen fun _ => ihRest.items id field collection type holder

/-! ### Documents -/

structure ObjectGraph.Alike (near : Location → Location → Prop) (graph graph' : ObjectGraph) :
    Prop where
  root_eq : graph'.root = graph.root
  encoding_eq : graph'.encoding = graph.encoding
  locations : ∀ map map', graph.locations = some map → graph'.locations = some map' →
    LocationMap.Alike near map map'

theorem Parallel.imp {near' : Location → Location → Prop}
    {outcome outcome' : Except ReadError ObjectGraph}
    (parallel : Parallel near (ObjectGraph.Alike near) outcome outcome')
    (implies : ∀ location location', near location location' → near' location location') :
    Parallel near' (ObjectGraph.Alike near') outcome outcome' := by
  cases parallel with
  | found graphs =>
      exact .found ⟨graphs.root_eq, graphs.encoding_eq, fun map map' mapEq mapEq' =>
        (graphs.locations map map' mapEq mapEq').imp implies⟩
  | failed errors => exact .failed (errors.imp implies)

theorem parallel_readDocument (context : Context) (view : View) (className : String)
    {document document' : Document} (alike : document.Alike place document') :
    Parallel (Near place context (context.under view))
      (ObjectGraph.Alike (Near place context (context.under view)))
      (context.readDocument className document)
      ((context.under view).readDocument className document') := by
  have strictEq : (context.under view).strict = context.strict := rfl
  have layoutEq : (context.under view).schema.layout? className = context.schema.layout? className := rfl
  unfold Context.readDocument
  rw [layoutEq]
  cases context.schema.layout? className with
  | none => exact .failed (.unplaced rfl)
  | some layout =>
      cases alike with
      | empty endings =>
          cases endings with
          | failed error => exact .failed (.unplaced rfl)
          | finished firstPlace _ _ =>
              exact .placed (.noElement _ _) rfl (near_locate context view firstPlace)
      | rooted tags within =>
          have children := (contentParallel context view within).children
          have entity := parallel_entity tags within
            (fun frame frame' frames values => children frame frame' frames values []) className true
          simp only [strictEq, tags.name_eq, within.encoding_eq]
          split
          · exact .placed (.unexpectedRoot _ _ _) rfl (near_locate context view tags.position)
          · have initial : Session.Alike (Near place context (context.under view)) .initial .initial :=
              ⟨rfl, .nil, .nil, .nil⟩
            apply (entity .initial .initial initial).bind
            rintro ⟨root, session⟩ ⟨root', session'⟩ ⟨rootEq, sessions⟩
            refine .found ⟨rootEq.symm, rfl, ?_⟩
            intro map map' mapEq mapEq'
            rw [Option.ite_none_right_eq_some] at mapEq mapEq'
            rw [← Option.some_inj.1 mapEq.2, ← Option.some_inj.1 mapEq'.2]
            exact sessions.locations

theorem locations_isSome {className : String} {document : Document} {graph : ObjectGraph}
    (reads : context.readDocument className document = .ok graph) :
    graph.locations.isSome = context.schema.tracksLocations := by
  obtain ⟨_, _, _, _, _, locationsEq⟩ := readDocument_eq_ok reads
  rw [locationsEq]
  cases context.schema.tracksLocations <;> rfl

end Trellis.Reading
