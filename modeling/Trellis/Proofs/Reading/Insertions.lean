import Trellis.Proofs.Markup.Splices
import Trellis.Proofs.Reading.Foresight
import Trellis.Reading.Reader

/-!
What becomes of a read if something foreign is put into the document.

An element that no field or item goes by, or text, may be put between the children of an element
that is read child by child.  A lenient read passes over it and a strict read refuses it; only an
exploded entry gives no heed to elements other than its key and its value in either.
-/

namespace Trellis.Reading

open Markup (Blank Content Document Ending Tag)
open Markup.Content (Led PutsElement PutsText)
open Schema (Layout TaggedField)

/-! ### Passing over -/

/-- An element of the name is passed over in an element of the role, or refused. -/
def Foreign (role : Role) (name : String) : Prop :=
  match role with
  | .entity layout => layout.elementField? name = none
  | .items itemTag _ | .entries .explode itemTag => name ≠ itemTag
  | .entries .inline _ => False
  | .entry => name ≠ "key" ∧ name ≠ "value"

def Context.passForeign (context : Context) (role : Role) (tag : Tag) (inside : Content) :
    Except ReadError Unit :=
  match role with
  | .entry => context.passContent inside
  | _ => context.passElement tag inside

def Context.elementError? (context : Context) (role : Role) (tag : Tag) : Option ReadError :=
  match role with
  | .entry => none
  | _ => if context.strict then some (.unknownElement tag.name (context.locate tag.position)) else none

def Context.textError? (context : Context) (position : Position) : Option ReadError :=
  if context.strict then some (.unexpectedText (context.locate position)) else none

def outcomeOf : Option ReadError → Except ReadError Unit
  | none => .ok ()
  | some error => .error error

variable {context : Context}

private theorem passForeign_eq {role : Role} {tag : Tag} {inside : Content}
    (complete : inside.break? = none) :
    context.passForeign role tag inside = outcomeOf (context.elementError? role tag) := by
  have passed : context.passContent inside = .ok () := by
    simp only [Context.passContent, complete]
  have refused : context.passElement tag inside = outcomeOf
      (if context.strict then some (.unknownElement tag.name (context.locate tag.position))
        else none) := by
    unfold Context.passElement
    split
    · rfl
    · exact passed
  cases role with
  | entry => exact passed
  | _ => exact refused

private theorem passText_eq {position : Position} {text : String}
    (filled : Text.isBlankText text = false) :
    context.passText position text = outcomeOf (context.textError? position) := by
  unfold Context.passText Context.textError?
  cases context.strict <;> simp [filled, outcomeOf]

/-- The loop goes over texts and foreign elements as an element of the role is gone over. -/
structure Passes {α : Type} (context : Context) (role : Role) (loop : Content → Read α) : Prop where
  text : ∀ position text rest, loop (.text position text rest) =
    (liftM (context.passText position text) >>= fun _ => loop rest)
  element : ∀ tag inside rest, Foreign role tag.name → loop (.element tag inside rest) =
    (liftM (context.passForeign role tag inside) >>= fun _ => loop rest)
  broken : ∀ ending, loop (.broken ending) = throw (context.breakError ending)

section Loops

variable {α : Type} {role : Role} {loop loop' : Content → Read α} {related : α → α → Prop}

theorem Passes.led (passes : Passes context role loop) {text : Option String}
    {content rest : Content} (led : Led text rest content)
    (blank : context.strict = true → Blank text) : loop content = loop rest := by
  cases led with
  | nothing rest => rfl
  | text position text rest =>
      have passed : context.passText position text = .ok () := by
        unfold Context.passText
        cases strict : context.strict with
        | false => rfl
        | true => simp [blank strict text rfl]
      rw [passes.text, passed, Read.lift_ok_bind]

theorem Passes.refused (passes : Passes context role loop) {text : Option String}
    {content rest : Content} (led : Led text rest content) (strict : context.strict = true)
    (filled : ¬ Blank text) : ∃ error, loop content = throw error := by
  cases led with
  | nothing rest => exact absurd (fun _ impossible => by cases impossible) filled
  | text position text rest =>
      have notBlank : Text.isBlankText text = false := by
        rw [← Bool.not_eq_true]
        intro isBlank
        exact filled fun content same => by cases same; exact isBlank
      have refused : context.passText position text =
          .error (.unexpectedText (context.locate position)) := by
        simp [Context.passText, strict, notBlank]
      refine ⟨.unexpectedText (context.locate position), ?_⟩
      rw [passes.text, refused]
      rfl

private theorem foresees_outcomeOf {read read' : Read α} (foreseen : Option ReadError)
    (goesOn : Foresees none related read read') :
    Foresees foreseen related read (liftM (outcomeOf foreseen) >>= fun _ => read') := by
  cases foreseen with
  | none =>
      rw [outcomeOf, Read.lift_ok_bind]
      exact goesOn
  | some error => exact fun _ _ _ => .refused

variable (passes : Passes context role loop) (passes' : Passes context role loop')
variable (unchanged : ∀ rest rest', Content.Follows rest rest' →
  Foresees none related (loop rest) (loop' rest'))
include passes passes' unchanged

theorem foresees_putsElement {tag : Tag} (foreign : Foreign role tag.name)
    {content content' : Content} (puts : PutsElement tag content content') :
    Foresees (context.elementError? role tag) related (loop content) (loop' content') := by
  cases puts with
  | broken ending content =>
      rw [passes.broken]
      exact .throw
  | divides led ledBefore ledAfter complete follows blank =>
      rename_i whole before after inside middle rest rest'
      by_cases refused : context.strict = true ∧ ¬ Blank whole
      · obtain ⟨error, fails⟩ := passes.refused led refused.1 refused.2
        rw [fails]
        exact .throw
      · have blankWhole : context.strict = true → Blank whole := fun strict =>
          Classical.not_not.1 fun filled => refused ⟨strict, filled⟩
        rw [passes.led led blankWhole, passes'.led ledBefore fun strict => (blank (blankWhole strict)).1,
          passes'.element tag inside middle foreign, passForeign_eq complete,
          passes'.led ledAfter fun strict => (blank (blankWhole strict)).2]
        exact foresees_outcomeOf _ (unchanged rest rest' follows)

theorem foresees_putsText {position : Position} {content content' : Content}
    (puts : PutsText position content content') :
    Foresees (context.textError? position) related (loop content) (loop' content') := by
  cases puts with
  | broken ending content =>
      rw [passes.broken]
      exact .throw
  | joins led filled follows =>
      rename_i whole rest rest' text
      by_cases refused : context.strict = true ∧ ¬ Blank whole
      · obtain ⟨error, fails⟩ := passes.refused led refused.1 refused.2
        rw [fails]
        exact .throw
      · have blankWhole : context.strict = true → Blank whole := fun strict =>
          Classical.not_not.1 fun filled => refused ⟨strict, filled⟩
        rw [passes.led led blankWhole, passes'.text, passText_eq filled]
        exact foresees_outcomeOf _ (unchanged rest rest' follows)

end Loops

theorem Expects.of_lift {α β : Type} {foreseen : Option ReadError} {related : α → β → Prop}
    {outcome : Except ReadError α} {outcome' : Except ReadError β}
    (foresees : Foresees foreseen related (liftM outcome) (liftM outcome')) :
    Expects foreseen related outcome outcome' := by
  have step := foresees .initial .initial rfl
  rw [Read.lift_apply, Read.lift_apply] at step
  intro value isValue
  subst isValue
  have here := step _ rfl
  cases foreseen with
  | none =>
      obtain ⟨found, outcomeEq, holds, _⟩ := here
      cases outcome' with
      | error error => cases outcomeEq
      | ok value' =>
          cases outcomeEq
          exact ⟨value', rfl, holds⟩
  | some error =>
      cases outcome' with
      | error other =>
          cases here
          rfl
      | ok value' => cases here

theorem roleForesees_of_loops {foreseen : Option ReadError} {role : Role}
    {content content' : Content}
    (loops : ∀ {α : Type} {related : α → α → Prop} {loop loop' : Content → Read α},
      Passes context role loop → Passes context role loop' →
      (∀ rest rest', Content.Follows rest rest' → Foresees none related (loop rest) (loop' rest')) →
      Foresees foreseen related (loop content) (loop' content')) :
    RoleForesees context foreseen role content content' := by
  have follows {rest rest' : Content} (follows : rest.Follows rest') :
      RoleForesees context none role rest rest' := follows_foresees follows role
  cases role with
  | entity layout =>
      rintro frame location' values seen rfl
      have passes (frame' : Frame) (sameLayout : frame'.layout = frame.layout) :
          Passes context (.entity frame.layout) (context.readChildren frame' values seen) := by
        refine ⟨fun _ _ _ => rfl, ?_, fun _ => rfl⟩
        intro tag inside rest foreign
        have routes : frame'.layout.elementField? tag.name = none := by
          rw [sameLayout]
          exact foreign
        simp only [Context.readChildren, routes]
        rfl
      exact loops (passes frame rfl) (passes { frame with location := location' } rfl)
        fun rest rest' isFollowed => follows isFollowed frame location' values seen rfl
  | items itemTag type =>
      rintro id field collection holder rfl
      have passes : Passes context (.items field.itemTag type)
          (context.readItems id field collection type holder) := by
        refine ⟨fun _ _ _ => rfl, ?_, fun _ => rfl⟩
        intro tag inside rest foreign
        simp only [Context.readItems, if_neg foreign]
        rfl
      exact loops passes passes
        fun rest rest' isFollowed => follows isFollowed id field collection holder rfl
  | entries encoding itemTag =>
      rintro id field entries rfl
      have passes : Passes context (.entries encoding field.itemTag)
          (context.readEntries id field encoding entries) := by
        refine ⟨fun _ _ _ => rfl, ?_, fun _ => rfl⟩
        intro tag inside rest foreign
        cases encoding with
        | inline => exact foreign.elim
        | explode =>
            simp only [Context.readEntries, Context.readEntry, if_neg foreign, bind_assoc, pure_bind]
            rfl
      exact loops passes passes fun rest rest' isFollowed => follows isFollowed id field entries rfl
  | entry =>
      intro field parts position'
      have passes (parts : EntryParts) : Passes context .entry fun content =>
          (liftM (context.entryParts field parts content) : Read EntryParts) := by
        refine ⟨?_, ?_, fun _ => rfl⟩
        · intro position text rest
          simp only [Context.entryParts, Read.lift_bind]
        · intro tag inside rest foreign
          simp only [Context.entryParts, Context.entryPart, if_neg foreign.1, if_neg foreign.2,
            Read.lift_bind, bind_assoc]
          rfl
      exact Expects.of_lift (loops (passes parts) (passes { parts with position := position' })
        fun rest rest' isFollowed => .lift (follows isFollowed field parts position'))

/-! ### Documents -/

/-- A path of elements that are read child by child, from the document's own element on. -/
def Leads (schema : Schema) (className : String) (path : List String) (role : Role) : Prop :=
  ∃ first, entityRole? schema className = some first ∧
    path.foldlM (Role.child? schema) first = some role

theorem expects_readDocument {foreseen : Option ReadError} {className : String} {root : Tag}
    {position' : Position} {inside inside' : Content}
    (element : ElementForesees context foreseen (entityRole? context.schema className) inside
      inside') :
    Expects foreseen (fun graph graph' => graph'.root = graph.root)
      (context.readDocument className (.rooted root inside))
      (context.readDocument className (.rooted { root with position := position' } inside')) := by
  unfold Context.readDocument
  cases context.schema.layout? className with
  | none => exact .failed
  | some layout =>
      simp only
      split
      · exact .failed
      · have entity := foresees_entity element root position' true .initial .initial rfl
        exact entity.andThen fun found found' holds => .ok holds.1.symm

/-- What is foreseen for an element inside is foreseen for the document. -/
theorem readDocument_edited {foreseen : Option ReadError} {className : String} {path : List String}
    {role : Role} (leads : Leads context.schema className path role)
    {change : Content → Content → Prop} {root : Tag} {position' : Position} {inside inside' : Content}
    (edited : Content.Edited change path inside inside')
    (changed : ∀ content content', change content content' →
      RoleForesees context foreseen role content content') :
    Expects foreseen (fun graph graph' => graph'.root = graph.root)
      (context.readDocument className (.rooted root inside))
      (context.readDocument className (.rooted { root with position := position' } inside')) := by
  obtain ⟨first, firstEq, leads⟩ := leads
  apply expects_readDocument
  rw [firstEq]
  exact ⟨fun role isRole => by cases isRole; exact edited_foresees edited leads changed,
    fun noRole => by cases noRole⟩

end Trellis.Reading
