import Trellis.Proofs.Reading.Parallels
import Trellis.Proofs.Schema.Acceptance

/-!
Documents with a byte order mark.

A byte order mark in front of a document changes nothing of what is read from it but the places.
The mark is not among the bytes that the scanner counts, and it is among those that places are found
by, so that in the marked document everything is reported three bytes too early.
-/

namespace Trellis.Reading

open Markup (withoutMark)
open Markup.Scanner (placeBehind positionAt positionAt_append)
open Text (utf8Length)

/-- The locations that one number of bytes has in a document and in the marked document. -/
def Shifted (document : List Char) (source : Option Source) (location location' : Location) : Prop :=
  ∃ byte, location = ⟨positionAt document byte, source⟩ ∧
    location' = ⟨positionAt ('\uFEFF' :: document) byte, source⟩

/-- A document reads with a byte order mark in front as it does without: the same root with the same
identities and the same encoding, and the same things recorded in the same order; but a place that
is recorded is where the marked document has as many bytes before it as the document has before the
thing. -/
theorem mark_shifts_places (reader : Reader) (className document : String) (source : Option Source)
    (noMark : document.toList.head? ≠ some '\uFEFF') {graph : ObjectGraph}
    (reads : reader.readAs className document source = .ok graph) :
    ∃ graph', reader.readAs className ("\uFEFF" ++ document) source = .ok graph' ∧
      graph'.root = graph.root ∧ graph'.encoding = graph.encoding ∧
      graph'.locations.isSome = graph.locations.isSome ∧
      ∀ map map', graph.locations = some map → graph'.locations = some map' →
        LocationMap.Alike
          (Shifted document.toList (if reader.schema.tracksSources then source else none)) map map' := by
  let context : Context :=
    ⟨reader.schema, reader.options.strict, if reader.schema.tracksSources then source else none⟩
  let view : View := ⟨context.schema.locationTracker, context.schema.sourceTracker, context.source⟩
  have documents := Markup.parse_mark_alike reader.options.extended (Markup.withoutMark_eq_self noMark)
  have parallel := parallel_readDocument context view className documents
  have graphEq : context.readDocument className (.parse reader.options.extended document) =
      .ok graph := reads
  rw [graphEq] at parallel
  cases markedEq : (context.under view).readDocument className
      (.parse reader.options.extended ("\uFEFF" ++ document)) with
  | error error =>
      rw [markedEq] at parallel
      cases parallel
  | ok graph' =>
      rw [markedEq] at parallel
      cases parallel with
      | found graphs =>
          refine ⟨graph', markedEq, graphs.root_eq, graphs.encoding_eq, ?_, ?_⟩
          · rw [locations_isSome markedEq, locations_isSome graphEq]
            rfl
          · intro map map' mapEq mapEq'
            refine (graphs.locations map map' mapEq mapEq').imp ?_
            rintro _ _ ⟨_, _, ⟨byte, rfl, rfl⟩, rfl, rfl⟩
            exact ⟨byte, rfl, rfl⟩

def note : Schema.Declarations where
  classes := [
    { name := "Note", fields := [{ name := "text", kind := .scalar .text }] }, { name := "Place" }]
  roots := ["Note"]
  locationTracker := some "Place"

def rootPlace? (outcome : Except ReadError ObjectGraph) : Option Location :=
  outcome.toOption.bind fun graph => graph.locations.bind (·.entityPlace? ⟨0⟩)

private theorem rootPlace?_eq_some {outcome : Except ReadError ObjectGraph} {location : Location}
    (found : rootPlace? outcome = some location) :
    ∃ graph map, outcome = .ok graph ∧ graph.locations = some map ∧
      map.entityPlace? ⟨0⟩ = some location := by
  cases outcome with
  | error error => cases found
  | ok graph =>
      have found : graph.locations.bind (·.entityPlace? ⟨0⟩) = some location := found
      obtain ⟨map, mapEq, placeEq⟩ := Option.bind_eq_some_iff.1 found
      exact ⟨graph, map, rfl, mapEq, placeEq⟩

/-- A note on the second line of a document, and the same note behind a byte order mark. -/
theorem mark_shifts_places_of_note :
    ∃ schema, note.build = .ok schema ∧
      let reader : Reader := ⟨schema, {}⟩
      let document := "\n<note><text>x</text></note>"
      document.toList.head? ≠ some '\uFEFF' ∧
      ∃ graph graph', reader.readAs "Note" document none = .ok graph ∧
        reader.readAs "Note" ("\uFEFF" ++ document) none = .ok graph' ∧ graph'.root = graph.root ∧
        ∃ map map', graph.locations = some map ∧ graph'.locations = some map' ∧
          LocationMap.Alike (Shifted document.toList none) map map' := by
  have place : note.build.toOption.any (fun schema =>
      (rootPlace? ((⟨schema, {}⟩ : Reader).readAs "Note" "\n<note><text>x</text></note>" none)).isSome)
        = true := by
    decide +kernel
  obtain ⟨schema, built, place⟩ := Schema.exists_built place
  obtain ⟨location, placeEq⟩ := Option.isSome_iff_exists.1 place
  obtain ⟨graph, map, readEq, mapEq, _⟩ := rootPlace?_eq_some placeEq
  have noMark : "\n<note><text>x</text></note>".toList.head? ≠ some '\uFEFF' := by decide +kernel
  obtain ⟨graph', readEq', rootEq, _, isSomeEq, alike⟩ :=
    mark_shifts_places ⟨schema, {}⟩ "Note" _ none noMark readEq
  rw [mapEq] at isSomeEq
  obtain ⟨map', mapEq'⟩ := Option.isSome_iff_exists.1 isSomeEq
  have alike := alike map map' mapEq mapEq'
  rw [ite_self] at alike
  exact ⟨schema, built, noMark, graph, graph', readEq, readEq', rootEq, map, map', mapEq, mapEq', alike⟩

/-- A byte order mark puts a note of the second line at the end of the first line. -/
theorem mark_not_transparent :
    ∃ schema, note.build = .ok schema ∧
      let reader : Reader := ⟨schema, {}⟩
      let document := "\n<note><text>x</text></note>"
      document.toList.head? ≠ some '\uFEFF' ∧
      ∃ graph map graph' map', reader.readAs "Note" document none = .ok graph ∧
        graph.locations = some map ∧ map.entityPlace? ⟨0⟩ = some ⟨⟨2, 1⟩, none⟩ ∧
        reader.readAs "Note" ("\uFEFF" ++ document) none = .ok graph' ∧
        graph'.locations = some map' ∧ map'.entityPlace? ⟨0⟩ = some ⟨⟨1, 2⟩, none⟩ := by
  have places : note.build.toOption.any (fun schema =>
      rootPlace? ((⟨schema, {}⟩ : Reader).readAs "Note" "\n<note><text>x</text></note>" none) ==
          some ⟨⟨2, 1⟩, none⟩ &&
        rootPlace? ((⟨schema, {}⟩ : Reader).readAs "Note"
          ("\uFEFF" ++ "\n<note><text>x</text></note>") none) == some ⟨⟨1, 2⟩, none⟩) = true := by
    decide +kernel
  obtain ⟨schema, built, places⟩ := Schema.exists_built places
  simp only [Bool.and_eq_true, beq_iff_eq] at places
  obtain ⟨graph, map, readEq, mapEq, placeEq⟩ := rootPlace?_eq_some places.1
  obtain ⟨graph', map', readEq', mapEq', placeEq'⟩ := rootPlace?_eq_some places.2
  have noMark : "\n<note><text>x</text></note>".toList.head? ≠ some '\uFEFF' := by decide +kernel
  exact ⟨schema, built, noMark, graph, map, graph', map', readEq, mapEq, placeEq, readEq', mapEq',
    placeEq'⟩

end Trellis.Reading
