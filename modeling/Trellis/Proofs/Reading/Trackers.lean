import Trellis.Proofs.Reading.Parallels
import Trellis.Proofs.Reading.Targets

/-!
What trackers change.

Two schemas that differ in their trackers read the same things, whatever provenance the documents come
with.  The trackers decide whether places are told, and whether the provenance goes with them and with
the locations of errors.
-/

namespace Trellis

structure Schema.SameButTrackers (schema schema' : Schema) : Prop where
  classes_eq : schema'.classes = schema.classes
  root_eq : schema'.root = schema.root
  naming_eq : schema'.naming = schema.naming
  strictAttributes_eq : schema'.strictAttributes = schema.strictAttributes

theorem Schema.SameButTrackers.eq_under {schema schema' : Schema}
    (same : schema.SameButTrackers schema') :
    schema' = { schema with
      locationTracker := schema'.locationTracker, sourceTracker := schema'.sourceTracker } := by
  obtain ⟨classesEq, rootEq, namingEq, strictEq⟩ := same
  cases schema
  cases schema'
  cases classesEq
  cases rootEq
  cases namingEq
  cases strictEq
  rfl

def LocationMap.locations (map : LocationMap) : List Location :=
  map.entities.map (·.2) ++ (map.fields.map (·.2) ++ map.entries.map (·.2))

namespace Reading

open Markup (Document)
open Schema (Declarations)

/-! ### Statements -/

def SamePlace (location location' : Location) : Prop :=
  location'.toPosition = location.toPosition

/-- What a read tells of places: there is a map if they are tracked, and the same provenance, or none,
is attached to all locations in the map and to that of an error. -/
structure TellsPlaces (tracked : Bool) (attached : Option Source)
    (outcome : Except ReadError ObjectGraph) : Prop where
  present : ∀ graph, outcome = .ok graph → graph.locations.isSome = tracked
  recorded : ∀ graph map, outcome = .ok graph → graph.locations = some map →
    ∀ location ∈ map.locations, location.source = attached
  reported : ∀ error location, outcome = .error error → error.location? = some location →
    location.source = attached

/-! ### Locations of one read -/

variable {near : Location → Location → Prop} {map map' : LocationMap}

private theorem exists_near_of_recorded {κ : Type} {entries entries' : List (κ × Location)}
    (recorded : List.Forall₂ (Recorded near) entries entries') {location : Location}
    (member : location ∈ entries.map (·.2)) : ∃ location', near location location' := by
  induction recorded with
  | nil => cases member
  | @cons entry entry' _ _ here _ ih =>
      rcases List.mem_cons.1 member with rfl | later
      · exact ⟨entry'.2, here.2⟩
      · exact ih later

theorem LocationMap.Alike.exists_near (alike : LocationMap.Alike near map map') {location : Location}
    (member : location ∈ map.locations) : ∃ location', near location location' := by
  rcases List.mem_append.1 member with ofEntity | others
  · exact exists_near_of_recorded alike.entities ofEntity
  · rcases List.mem_append.1 others with ofField | ofEntry
    · exact exists_near_of_recorded alike.fields ofField
    · exact exists_near_of_recorded alike.entries ofEntry

theorem ReadError.Alike.exists_near {error error' : ReadError} (alike : error.Alike near error')
    {location : Location} (somewhere : error.location? = some location) :
    ∃ location', near location location' := by
  cases alike with
  | unplaced nowhere =>
      rw [nowhere] at somewhere
      cases somewhere
  | placed here there =>
      rw [here] at somewhere
      cases somewhere
      exact ⟨_, there⟩

private theorem readDocument_tellsPlaces (context : Context) (className : String)
    (document : Document) :
    TellsPlaces context.schema.tracksLocations context.source
      (context.readDocument className document) := by
  let view : View := ⟨context.schema.locationTracker, context.schema.sourceTracker, context.source⟩
  have documents : document.Alike Eq document := .refl (fun _ => rfl) document
  have parallel := parallel_readDocument context view className documents
  have attached {location : Location}
      (isNear : ∃ location', Near Eq context (context.under view) location location') :
      location.source = context.source := by
    obtain ⟨_, _, _, _, rfl, _⟩ := isNear
    rfl
  change Parallel _ _ _ (context.readDocument className document) at parallel
  refine ⟨fun graph reads => locations_isSome reads, ?_, ?_⟩
  · intro graph map reads mapEq location member
    rw [reads] at parallel
    cases parallel with
    | found graphs => exact attached ((graphs.locations map map mapEq mapEq).exists_near member)
  · intro error location fails somewhere
    rw [fails] at parallel
    cases parallel with
    | failed errors => exact attached (errors.exists_near somewhere)

private theorem samePlace_of_near {context context' : Context} {location location' : Location}
    (isNear : Near Eq context context' location location') : SamePlace location location' := by
  obtain ⟨_, _, rfl, rfl, rfl⟩ := isNear
  rfl

theorem Reader.enter_root (schema : Schema) (options : Options) (document : String)
    (source : Option Source) :
    (Reader.mk schema options).enter (.root source) document =
      Context.readDocument ⟨schema, options.strict, if schema.tracksSources then source else none⟩
        schema.root (.parse options.extended document) := by
  cases source <;> rfl

/-- Under schemas that differ in their trackers, a document is read as the same graph up to the
provenance of locations, or both reads end with the same error; and the trackers decide whether there
are locations, and whether the provenance goes with them. -/
theorem trackers_change_places_alone {schema schema' : Schema}
    (same : schema.SameButTrackers schema') (options : Options) (document : String)
    (source source' : Option Source) :
    let outcome := (Reader.mk schema options).enter (.root source) document
    let outcome' := (Reader.mk schema' options).enter (.root source') document
    Parallel SamePlace (ObjectGraph.Alike SamePlace) outcome outcome' ∧
      TellsPlaces schema.tracksLocations (if schema.tracksSources then source else none) outcome ∧
      TellsPlaces schema'.tracksLocations (if schema'.tracksSources then source' else none)
        outcome' := by
  intro outcome outcome'
  let context : Context := ⟨schema, options.strict, if schema.tracksSources then source else none⟩
  let context' : Context :=
    ⟨schema', options.strict, if schema'.tracksSources then source' else none⟩
  let view : View := ⟨schema'.locationTracker, schema'.sourceTracker, context'.source⟩
  have contextEq : context.under view = context' := by
    have schemaEq := same.eq_under
    exact congrArg (fun schema => (⟨schema, options.strict, context'.source⟩ : Context)) schemaEq.symm
  have outcomeEq : outcome = context.readDocument schema.root (.parse options.extended document) :=
    Reader.enter_root schema options document source
  have outcomeEq' :
      outcome' = context'.readDocument schema.root (.parse options.extended document) := by
    rw [← same.root_eq]
    exact Reader.enter_root schema' options document source'
  rw [outcomeEq, outcomeEq']
  refine ⟨?_, readDocument_tellsPlaces context _ _, readDocument_tellsPlaces context' _ _⟩
  have documents :
      (Document.parse options.extended document).Alike Eq (.parse options.extended document) :=
    .refl (fun _ => rfl) _
  have parallel := parallel_readDocument context view schema.root documents
  rw [contextEq] at parallel
  exact parallel.imp fun _ _ => samePlace_of_near

def report (locationTracker sourceTracker : Option String) : Declarations where
  classes := [
    { name := "Report"
      fields := [
        { name := "title", kind := .scalar .text },
        { name := "notes", kind := .many .list (.scalar .text) false }] },
    { name := "Place" }, { name := "Origin" }]
  roots := ["Report"]
  locationTracker
  sourceTracker

/-- A report from somewhere reads with both trackers as one from nowhere does without any. -/
theorem trackers_change_places_alone_of_report :
    let document := "<report><title>T</title><note>a</note></report>"
    let source : Source := ⟨some "unit", some "report.xml"⟩
    ∃ schema schema', (report (some "Place") (some "Origin")).build = .ok schema ∧
      (report none none).build = .ok schema' ∧ schema.SameButTrackers schema' ∧
      ∃ graph graph' map,
        (Reader.mk schema {}).enter (.root (some source)) document = .ok graph ∧
        (Reader.mk schema' {}).enter (.root none) document = .ok graph' ∧
        graph'.root = graph.root ∧ graph'.encoding = graph.encoding ∧ graph.locations = some map ∧
        graph'.locations = none ∧ map.locations.length = 4 ∧
        ∀ location ∈ map.locations, location.source = some source := by
  intro document source
  have passes : (report (some "Place") (some "Origin")).build.toOption.any (fun schema =>
      (report none none).build.toOption.any fun schema' =>
        decide (schema'.classes = schema.classes ∧ schema'.root = schema.root ∧
          schema'.naming = schema.naming ∧ schema'.strictAttributes = schema.strictAttributes ∧
          schema.tracksSources = true ∧ schema'.tracksLocations = false) &&
        (((Reader.mk schema {}).enter (.root (some source)) document).toOption.any fun graph =>
          graph.locations.any fun map => decide (map.locations.length = 4))) = true := by
    decide +kernel
  obtain ⟨schema, built, passes⟩ := Schema.exists_built passes
  obtain ⟨schema', built', passes⟩ := Schema.exists_built passes
  simp only [Bool.and_eq_true, Option.any_eq_true, decide_eq_true_eq] at passes
  obtain ⟨⟨classesEq, rootEq, namingEq, strictEq, tracks, untracked⟩, graph, found, map, mapEq,
    lengthEq⟩ := passes
  have same : schema.SameButTrackers schema' := ⟨classesEq, rootEq, namingEq, strictEq⟩
  have reads := eq_ok_of_toOption found
  obtain ⟨parallel, tells, tells'⟩ :=
    trackers_change_places_alone same {} document (some source) none
  rw [reads] at parallel
  cases readsEq : (Reader.mk schema' {}).enter (.root none) document with
  | error error =>
      rw [readsEq] at parallel
      cases parallel
  | ok graph' =>
      rw [readsEq] at parallel
      cases parallel with
      | found graphs =>
          have noMap := tells'.present graph' readsEq
          rw [untracked, Option.isSome_eq_false_iff, Option.isNone_iff_eq_none] at noMap
          have sources := tells.recorded graph map reads mapEq
          rw [tracks, if_pos rfl] at sources
          exact ⟨schema, schema', built, built', same, graph, graph', map, reads, readsEq,
            graphs.root_eq, graphs.encoding_eq, mapEq, noMap, lengthEq, sources⟩

end Reading

end Trellis
