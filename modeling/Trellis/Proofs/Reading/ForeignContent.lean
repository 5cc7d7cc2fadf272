import Trellis.Proofs.Reading.Insertions
import Trellis.Proofs.Schema.Acceptance

/-!
Foreign content of documents.

An element that nothing in the element around it goes by, or text, can be put into a document between
the children of any element that is read child by child.  Whatever has been put in, a lenient read
comes to the same root, with the same identities.  A strict read refuses it, and tells its place.
-/

namespace Trellis.Reading

open Markup (Gap IsElement IsText Tag withoutMark)
open Markup.Content (PutsElement PutsText)
open Markup.Scanner (positionAt placeBehind)
open Text (utf8Length)

section Documents

variable (context : Context) {extended : Bool} {className lead run : String} {path : List String}
variable {role : Role} (gap : Gap extended lead run path)
variable (leads : Leads context.schema className path role)
include gap leads

private theorem expects_putElement {name element : String} (foreign : Foreign role name)
    (isElement : IsElement extended name element) (after : String) :
    ∃ tag : Tag, tag.name = name ∧
      tag.position = positionAt (lead ++ run ++ element ++ after).toList
        (utf8Length (withoutMark lead.toList ++ run.toList)) ∧
      Expects (context.elementError? role tag) (fun graph graph' => graph'.root = graph.root)
        (context.readDocument className (.parse extended (lead ++ run ++ after)))
        (context.readDocument className (.parse extended (lead ++ run ++ element ++ after))) := by
  obtain ⟨tag, root, position', inside, inside', tagName, tagPosition, parsed, parsed', edited⟩ :=
    gap.parse_element isElement after
  refine ⟨tag, tagName, tagPosition, ?_⟩
  rw [parsed, parsed']
  apply readDocument_edited leads edited
  intro content content' puts
  apply roleForesees_of_loops
  intro α related loop loop' passes passes' unchanged
  exact foresees_putsElement passes passes' unchanged (tagName ▸ foreign) puts

private theorem expects_putText {text : String} (isText : IsText extended text) (after : String) :
    Expects
      (context.textError? (positionAt (lead ++ run ++ text ++ after).toList
        (utf8Length (withoutMark lead.toList))))
      (fun graph graph' => graph'.root = graph.root)
      (context.readDocument className (.parse extended (lead ++ run ++ after)))
      (context.readDocument className (.parse extended (lead ++ run ++ text ++ after))) := by
  obtain ⟨root, position', inside, inside', parsed, parsed', edited⟩ := gap.parse_text isText after
  rw [parsed, parsed']
  apply readDocument_edited leads edited
  intro content content' puts
  apply roleForesees_of_loops
  intro α related loop loop' passes passes' unchanged
  exact foresees_putsText passes passes' unchanged puts

end Documents

def KeepsRoot (outcome outcome' : Except ReadError ObjectGraph) : Prop :=
  ∀ graph, outcome = .ok graph → ∃ graph', outcome' = .ok graph' ∧ graph'.root = graph.root

def RefusedWith (error : ReadError) (outcome outcome' : Except ReadError ObjectGraph) : Prop :=
  ∀ graph, outcome = .ok graph → outcome' = .error error

/-- The place of the character behind the text, as it is reported: the place itself, unless the
document begins with a byte order mark. -/
def ReportedBehind (document : String) (passed : List Char) (position : Position) : Prop :=
  position = positionAt document.toList (utf8Length (withoutMark passed)) ∧
    (passed.head? ≠ some '\uFEFF' → position = placeBehind passed)

private theorem reportedBehind (passed later : String) :
    ReportedBehind (passed ++ later) passed.toList
      (positionAt (passed ++ later).toList (utf8Length (withoutMark passed.toList))) := by
  refine ⟨rfl, ?_⟩
  intro unmarked
  have same : withoutMark passed.toList = passed.toList := by
    cases charsEq : passed.toList with
    | nil => rfl
    | cons c rest =>
        rw [charsEq, List.head?_cons, ne_eq, Option.some.injEq] at unmarked
        exact if_neg unmarked
  rw [same, String.toList_append]
  exact Markup.Scanner.positionAt_append passed.toList later.toList

/-- Foreign content between the children of an element that is read child by child leaves a lenient
read with its root.  A strict read refuses it at its place; of an element in the entry of an exploded
map it takes no heed. -/
theorem foreign_content_passed_or_refused {schema : Schema} {extended : Bool}
    {className lead run : String} {path : List String} {role : Role}
    (gap : Gap extended lead run path) (leads : Leads schema className path role) (after : String)
    (source : Option Source) :
    let read (strict : Bool) (document : String) :=
      (Reader.mk schema ⟨strict, extended⟩).readAs className document source
    let located (position : Position) : Location :=
      ⟨position, if schema.tracksSources then source else none⟩
    let original := lead ++ run ++ after
    (∀ name element, IsElement extended name element → Foreign role name →
      let changed := lead ++ run ++ element ++ after
      KeepsRoot (read false original) (read false changed) ∧
      (role = .entry → KeepsRoot (read true original) (read true changed)) ∧
      (role ≠ .entry → ∃ position, ReportedBehind changed (lead ++ run).toList position ∧
        RefusedWith (.unknownElement name (located position)) (read true original)
          (read true changed))) ∧
    (∀ text, IsText extended text →
      let changed := lead ++ run ++ text ++ after
      KeepsRoot (read false original) (read false changed) ∧
      ∃ position, ReportedBehind changed lead.toList position ∧
        RefusedWith (.unexpectedText (located position)) (read true original) (read true changed)) := by
  intro read located original
  constructor
  · intro name element isElement foreign changed
    have runs : withoutMark lead.toList ++ run.toList = withoutMark (lead ++ run).toList := by
      rw [String.toList_append, Markup.withoutMark_append gap.lead_ne_nil]
    obtain ⟨_, _, _, lenient⟩ := expects_putElement
      ⟨schema, false, if schema.tracksSources then source else none⟩ gap leads foreign isElement after
    obtain ⟨tag, tagName, tagPosition, strict⟩ := expects_putElement
      ⟨schema, true, if schema.tracksSources then source else none⟩ gap leads foreign isElement after
    have reported := reportedBehind (lead ++ run) (element ++ after)
    rw [← runs, ← String.append_assoc, ← tagPosition] at reported
    refine ⟨?_, ?_, ?_⟩
    · cases role <;> exact lenient
    · rintro rfl
      exact strict
    · intro notEntry
      refine ⟨tag.position, reported, ?_⟩
      rw [← tagName]
      cases role with
      | entry => exact absurd rfl notEntry
      | _ => exact strict
  · intro text isText changed
    have reported := reportedBehind lead (run ++ text ++ after)
    rw [← String.append_assoc, ← String.append_assoc] at reported
    exact ⟨expects_putText ⟨schema, false, _⟩ gap leads isText after, _, reported,
      expects_putText ⟨schema, true, _⟩ gap leads isText after⟩

theorem noSign_of_all {text : List Char} (plain : text.all (· != '<') = true) :
    ∀ c ∈ text, c ≠ '<' := by
  intro c member
  exact bne_iff_ne.1 (List.all_eq_true.1 plain c member)

def crate : Schema.Declarations where
  classes := [
    { name := "Crate"
      fields := [
        { name := "label", kind := .scalar .text },
        { name := "inner", kind := .one "Crate" }] }]
  roots := ["Crate"]

/-- Behind the start tag of the inner crate and a line end, there is a place for foreign content. -/
theorem crate_gap : Gap false "<crate><inner>" "\n " ["inner"] where
  mode_eq := by decide +kernel
  stands := by
    have tokens : (Markup.scanned false "<crate><inner>").emitted.reverse =
        [⟨.opening "crate" [], ⟨1, 1⟩, "UTF-8"⟩, ⟨.opening "inner" [], ⟨1, 8⟩, "UTF-8"⟩] := by
      decide +kernel
    rw [tokens]
    exact ⟨[], _, _, rfl, nofun, ⟨_, _, rfl⟩, rfl⟩
  noSign := noSign_of_all (by decide +kernel)
  decodes := ⟨"\n ", eq_ok_of_toOption (by decide +kernel)⟩

private theorem note_isElement : IsElement false "note" "<note a=\"1\">x<label/></note>" where
  begins := ⟨'n', _, rfl, by decide⟩
  mode_eq := by decide +kernel
  opened_eq := by decide +kernel
  tokens := by
    have tokens : (Markup.scanned false "<note a=\"1\">x<label/></note>").emitted.reverse =
        [⟨.opening "note" [("a", "1")], ⟨1, 1⟩, "UTF-8"⟩, ⟨.text "x", ⟨1, 13⟩, "UTF-8"⟩,
          ⟨.opening "label" [], ⟨1, 14⟩, "UTF-8"⟩, ⟨.closing "label", ⟨1, 22⟩, "UTF-8"⟩,
          ⟨.closing "note", ⟨1, 22⟩, "UTF-8"⟩] := by
      decide +kernel
    rw [tokens]
    have label : Markup.Balanced
        [⟨.opening "label" [], ⟨1, 14⟩, "UTF-8"⟩, ⟨.closing "label", ⟨1, 22⟩, "UTF-8"⟩] :=
      @Markup.Balanced.element _ _ [] [] rfl rfl .nil .nil
    exact ⟨_, [_, _, _], _, _, rfl, rfl, label.text rfl, rfl⟩

/-- A note in the inner crate is passed over by a lenient read with what is in it, a label among
that.  A strict read refuses it, and text there from the beginning of the text on. -/
theorem crate_foreign_content :
    let original := "<crate><inner>" ++ "\n " ++ "<label>A</label></inner></crate>"
    let noted := "<crate><inner>" ++ "\n " ++ "<note a=\"1\">x<label/></note>" ++
      "<label>A</label></inner></crate>"
    let loose := "<crate><inner>" ++ "\n " ++ "loose" ++ "<label>A</label></inner></crate>"
    ∃ schema, crate.build = .ok schema ∧
      let read (strict : Bool) (document : String) :=
        (Reader.mk schema ⟨strict, false⟩).readAs schema.root document none
      ∃ strictGraph lenientGraph notedGraph,
        read true original = .ok strictGraph ∧ read false original = .ok lenientGraph ∧
        read false noted = .ok notedGraph ∧ notedGraph.root = lenientGraph.root ∧
        read true noted = .error (.unknownElement "note" ⟨⟨2, 2⟩, none⟩) ∧
        read true loose = .error (.unexpectedText ⟨⟨1, 15⟩, none⟩) := by
  intro original noted loose
  have checked : crate.build.toOption.any (fun schema =>
      ((Reader.mk schema ⟨true, false⟩).readAs schema.root original none).toOption.isSome &&
        (((Reader.mk schema ⟨false, false⟩).readAs schema.root original none).toOption.isSome &&
          ((entityRole? schema schema.root).bind (["inner"].foldlM (Role.child? schema))).any
            fun role => match role with
              | .entity layout => (layout.elementField? "note").isNone
              | _ => false)) = true := by
    decide +kernel
  obtain ⟨schema, built, checked⟩ := Schema.exists_built checked
  simp only [Bool.and_eq_true, Option.any_eq_true, Option.isSome_iff_exists] at checked
  obtain ⟨⟨strictGraph, strictReads⟩, ⟨lenientGraph, lenientReads⟩, role, leads, foreign⟩ := checked
  obtain ⟨first, firstEq, leads⟩ := Option.bind_eq_some_iff.1 leads
  have foreignNote : Foreign role "note" := by
    cases role with
    | entity layout => exact Option.isNone_iff_eq_none.1 foreign
    | _ => cases foreign
  have notEntry : role ≠ .entry := by
    rintro rfl
    cases foreign
  have strictEq := eq_ok_of_toOption strictReads
  have lenientEq := eq_ok_of_toOption lenientReads
  have foreignContent := foreign_content_passed_or_refused crate_gap ⟨first, firstEq, leads⟩
    "<label>A</label></inner></crate>" none
  simp only [ite_self] at foreignContent
  obtain ⟨passed, _, refused⟩ := foreignContent.1 "note" _ note_isElement foreignNote
  obtain ⟨position, ⟨_, place⟩, refused⟩ := refused notEntry
  have isText : IsText false "loose" :=
    ⟨noSign_of_all (by decide +kernel), "loose", eq_ok_of_toOption (by decide +kernel),
      by decide +kernel⟩
  obtain ⟨_, position', ⟨_, place'⟩, refused'⟩ := foreignContent.2 "loose" isText
  rw [place (by decide +kernel)] at refused
  rw [place' (by decide +kernel)] at refused'
  obtain ⟨notedGraph, notedEq, sameRoot⟩ := passed lenientGraph lenientEq
  exact ⟨schema, built, strictGraph, lenientGraph, notedGraph, strictEq, lenientEq, notedEq, sameRoot,
    refused strictGraph strictEq, refused' strictGraph strictEq⟩

end Trellis.Reading
