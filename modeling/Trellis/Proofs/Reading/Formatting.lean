import Mathlib.Logic.Relation
import Trellis.Proofs.Markup.Formats
import Trellis.Proofs.Reading.ForeignContent

/-!
Reads that do not depend on how a document is formatted.

Blank text between the children of an element that is read child by child, comments, processing
instructions, and the way in which elements without content are written make no difference to what
is read: the root is the same, with the same identities.
-/

namespace Trellis.Reading

open Markup (Blank Content Document Gap IsBlank IsRemark IsTag emptyTag scanned tagPair)
open Markup.Content (Relaxes)

variable {context : Context}

section Loops

variable {α : Type} {role : Role} {loop loop' : Content → Read α} {related : α → α → Prop}

private theorem foresees_relaxes (passes : Passes context role loop)
    (passes' : Passes context role loop')
    (unchanged : ∀ rest rest', Content.Follows rest rest' →
      Foresees none related (loop rest) (loop' rest'))
    {content content' : Content} (relaxes : Relaxes content content') :
    Foresees none related (loop content) (loop' content') := by
  cases relaxes with
  | broken ending content =>
      rw [passes.broken]
      exact .throw
  | @blank text text' _ _ rest rest' led led' both follows =>
      by_cases refused : context.strict = true ∧ ¬ Blank text
      · obtain ⟨error, fails⟩ := passes.refused led refused.1 refused.2
        rw [fails]
        exact .throw
      · have isBlank (strict : context.strict = true) : Blank text :=
          Classical.not_not.1 fun filled => refused ⟨strict, filled⟩
        rw [passes.led led isBlank, passes'.led led' fun strict => both.1 (isBlank strict)]
        exact unchanged rest rest' follows

end Loops

section Documents

variable {className : String} {document document' : Document}

private theorem readDocument_follows (follows : document.Follows document') :
    Expects none (fun graph graph' => graph'.root = graph.root)
      (context.readDocument className document) (context.readDocument className document') := by
  cases follows with
  | empty ending document =>
      unfold Context.readDocument
      cases context.schema.layout? className with
      | none => exact .failed
      | some layout => cases ending <;> exact .failed
  | rooted follows => exact expects_readDocument (follows_element follows _)

private theorem readDocument_relaxed {path : List String} {role : Role}
    (leads : Leads context.schema className path role)
    (relaxed : document.Edited Relaxes path document') :
    Expects none (fun graph graph' => graph'.root = graph.root)
      (context.readDocument className document) (context.readDocument className document') := by
  cases relaxed with
  | rooted edited =>
      apply readDocument_edited leads edited
      intro content content' relaxes
      apply roleForesees_of_loops
      intro α related loop loop' passes passes' unchanged
      exact foresees_relaxes passes passes' unchanged relaxes

end Documents

/-- The second document is the first one with blank text or a remark put in, or with an empty tag
written as a start tag and an end tag. -/
inductive Reformats (schema : Schema) (className : String) (extended : Bool) : String → String → Prop
  | blank {lead run text : String} {path : List String} {role : Role}
      (gap : Gap extended lead run path) (leads : Leads schema className path role)
      (isBlank : IsBlank extended text) (after : String) :
      Reformats schema className extended (lead ++ run ++ after) (lead ++ run ++ text ++ after)
  | remark {lead run remark : String} {path : List String} (gap : Gap extended lead run path)
      (isRemark : IsRemark remark) (after : String) :
      Reformats schema className extended (lead ++ run ++ after) (lead ++ run ++ remark ++ after)
  | tags {front text : String} (inText : ∃ taken, (scanned extended front).mode = .text taken)
      (isTag : IsTag text) (back : String) :
      Reformats schema className extended (front ++ emptyTag text ++ back)
        (front ++ tagPair text ++ back)

/-- One step changes no root, in either direction. -/
theorem Reformats.keepsRoot {schema : Schema} {options : Options} {className document document' : String}
    (reformats : Reformats schema className options.extended document document')
    (source : Option Source) :
    let read (document : String) := (Reader.mk schema options).readAs className document source
    KeepsRoot (read document) (read document') ∧ KeepsRoot (read document') (read document) := by
  intro read
  cases reformats with
  | blank gap leads isBlank after =>
      obtain ⟨there, back⟩ := gap.parse_blank isBlank after
      exact ⟨readDocument_relaxed leads there, readDocument_relaxed leads back⟩
  | remark gap isRemark after =>
      obtain ⟨there, back⟩ := gap.parse_remark isRemark after
      exact ⟨readDocument_follows there, readDocument_follows back⟩
  | tags inText isTag back =>
      obtain ⟨there, back⟩ := Markup.parse_tags inText isTag back
      exact ⟨readDocument_follows there, readDocument_follows back⟩

theorem KeepsRoot.trans {first second third : Except ReadError ObjectGraph}
    (keeps : KeepsRoot first second) (keeps' : KeepsRoot second third) : KeepsRoot first third := by
  intro graph reads
  obtain ⟨between, betweenReads, sameRoot⟩ := keeps graph reads
  obtain ⟨graph', reads', sameRoot'⟩ := keeps' between betweenReads
  exact ⟨graph', reads', sameRoot'.trans sameRoot⟩

/-- However a document that can be read is formatted, in any number of steps, it can be read and
comes to the same root with the same identities. -/
theorem formatting_ignored {schema : Schema} {options : Options} {className document document' : String}
    (reformatted : Relation.EqvGen (Reformats schema className options.extended) document document')
    (source : Option Source) {graph : ObjectGraph}
    (reads : (Reader.mk schema options).readAs className document source = .ok graph) :
    ∃ graph', (Reader.mk schema options).readAs className document' source = .ok graph' ∧
      graph'.root = graph.root := by
  let read (document : String) := (Reader.mk schema options).readAs className document source
  -- A step may be undone, so both directions are carried along.
  have both : KeepsRoot (read document) (read document') ∧ KeepsRoot (read document') (read document) := by
    clear reads
    induction reformatted with
    | rel _ _ reformats => exact reformats.keepsRoot source
    | refl document => exact ⟨fun graph reads => ⟨graph, reads, rfl⟩, fun graph reads => ⟨graph, reads, rfl⟩⟩
    | symm _ _ _ ih => exact ih.symm
    | trans _ _ _ _ _ ih ih' => exact ⟨ih.1.trans ih'.1, ih'.2.trans ih.2⟩
  exact both.1 graph reads

private theorem label_gap : Gap false "<crate><inner>\n \t<label>" "A" ["inner", "label"] where
  mode_eq := by decide +kernel
  stands := by
    have tokens : (scanned false "<crate><inner>\n \t<label>").emitted.reverse =
        [⟨.opening "crate" [], ⟨1, 1⟩, "UTF-8"⟩, ⟨.opening "inner" [], ⟨1, 8⟩, "UTF-8"⟩,
          ⟨.text "\n \t", ⟨1, 15⟩, "UTF-8"⟩, ⟨.opening "label" [], ⟨2, 3⟩, "UTF-8"⟩] := by
      decide +kernel
    rw [tokens]
    exact ⟨[], _, _, rfl, nofun, ⟨_, _, rfl⟩, rfl⟩
  noSign := noSign_of_all (by decide +kernel)
  decodes := ⟨"A", eq_ok_of_toOption (by decide +kernel)⟩

private theorem innerTag_isTag : IsTag "inner" where
  opens := ⟨by decide +kernel, rfl, fun first isFirst => by cases isFirst; decide⟩
  goesOn := Markup.Piece.goesOn_of_noEnd (by decide +kernel)
  settled := by decide +kernel
  open_ := by decide +kernel
  named := by decide +kernel

/-- A crate with more blanks, a comment in its label and its last crate written with two tags. -/
theorem crate_formatting_ignored :
    let original := "<crate><inner>\n <label>AB</label><inner/></inner></crate>"
    let formatted := "<crate><inner>\n \t<label>A<!-- > -->B</label><inner></inner></inner></crate>"
    ∃ schema, crate.build = .ok schema ∧
      let read (document : String) :=
        (Reader.mk schema ⟨true, false⟩).readAs schema.root document none
      ∃ graph graph', read original = .ok graph ∧ read formatted = .ok graph' ∧
        graph'.root = graph.root := by
  intro original formatted
  have checked : crate.build.toOption.any (fun schema =>
      ((Reader.mk schema ⟨true, false⟩).readAs schema.root original none).toOption.isSome &&
        ((entityRole? schema schema.root).bind
          (["inner"].foldlM (Role.child? schema))).isSome) = true := by
    decide +kernel
  obtain ⟨schema, built, checked⟩ := Schema.exists_built checked
  simp only [Bool.and_eq_true, Option.isSome_iff_exists] at checked
  obtain ⟨⟨graph, reads⟩, role, leads⟩ := checked
  obtain ⟨first, firstEq, leads⟩ := Option.bind_eq_some_iff.1 leads
  have tab : IsBlank false "\t" :=
    ⟨noSign_of_all (by decide +kernel), "\t", eq_ok_of_toOption (by decide +kernel),
      by decide +kernel⟩
  have comment : IsRemark "<!-- > -->" := .comment " > " (by decide +kernel)
  have inText : ∃ taken,
      (scanned false "<crate><inner>\n \t<label>A<!-- > -->B</label>").mode = .text taken :=
    ⟨[], by decide +kernel⟩
  have blanks : Reformats schema schema.root false original
      "<crate><inner>\n \t<label>AB</label><inner/></inner></crate>" :=
    .blank crate_gap ⟨first, firstEq, leads⟩ tab "<label>AB</label><inner/></inner></crate>"
  have remarks : Reformats schema schema.root false
      "<crate><inner>\n \t<label>AB</label><inner/></inner></crate>"
      "<crate><inner>\n \t<label>A<!-- > -->B</label><inner/></inner></crate>" :=
    .remark label_gap comment "B</label><inner/></inner></crate>"
  have tags : Reformats schema schema.root false
      "<crate><inner>\n \t<label>A<!-- > -->B</label><inner/></inner></crate>" formatted :=
    .tags inText innerTag_isTag "</inner></crate>"
  obtain ⟨graph', reads', sameRoot⟩ := formatting_ignored
    (.trans _ _ _ (.rel _ _ blanks) (.trans _ _ _ (.rel _ _ remarks) (.rel _ _ tags))) none
    (eq_ok_of_toOption reads)
  exact ⟨schema, built, graph, graph', eq_ok_of_toOption reads, reads', sameRoot⟩

end Trellis.Reading
