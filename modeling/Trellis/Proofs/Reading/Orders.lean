import Trellis.Proofs.Markup.Rearrangements
import Trellis.Proofs.Reading.Failures
import Trellis.Proofs.Reading.Insertions
import Trellis.Proofs.Reading.Resemblance

/-!
Reads that do not depend on the order of children.

The child elements of an entity give values to its fields.  Those of different fields may come in any
order, since none of them looks at what another one has given; those of one list or set that has no
element of its own must follow one another as before.
-/

namespace Trellis.Schema

def Layout.itemsField? (layout : Layout) (name : String) : Option TaggedField :=
  (layout.elementField? name).filter (·.declared.isUnwrapped)

end Trellis.Schema

namespace Trellis.Reading

open Trellis.Graph (Entity FieldsSame Value)
open Markup (Child Content Document Permutes Rearranged Tag)
open Markup.Content (Rearranges)
open Schema (Layout TaggedField)

variable {context : Context}

/-! ### Child by child -/

/-- The tag that a child element of the name takes, so that no other one may take it. -/
def takenTag? (layout : Layout) (name : String) : Option String :=
  match layout.elementField? name with
  | none => none
  | some field => if field.declared.isUnwrapped then none else some field.tag

def Context.takeChild (context : Context) (layout : Layout) (seen : List String) (child : Child) :
    Except ReadError (List String) :=
  match layout.elementField? child.tag.name with
  | none => .ok seen
  | some field => context.takeTag field seen child.tag

def Context.giveChild (context : Context) (frame : Frame) (values : FieldValues) (child : Child) :
    Read FieldValues :=
  match frame.layout.elementField? child.tag.name with
  | none => do
      context.passElement child.tag child.inside
      return values
  | some field => context.readField frame values field child.tag child.inside

private theorem readChildren_cons (frame : Frame) (values : FieldValues) (seen : List String)
    (child : Child)
    (rest : Content) :
    context.readChildren frame values seen (.element child.tag child.inside rest) =
      (liftM (context.takeChild frame.layout seen child) >>= fun seen =>
        context.giveChild frame values child >>= fun values =>
          context.readChildren frame values seen rest) := by
  simp only [Context.readChildren, Context.takeChild, Context.giveChild]
  cases frame.layout.elementField? child.tag.name with
  | none => simp only [Read.lift_ok_bind, bind_assoc, pure_bind]
  | some field => rfl

private theorem takeChild_eq_ok_iff {layout : Layout} {seen taken : List String} {child : Child} :
    context.takeChild layout seen child = .ok taken ↔
      (∀ tag, takenTag? layout child.tag.name = some tag → tag ∉ seen) ∧
        (takenTag? layout child.tag.name).toList ++ seen = taken := by
  unfold Context.takeChild takenTag?
  cases layout.elementField? child.tag.name with
  | none => simp
  | some field =>
      simp only [Context.takeTag]
      by_cases unwrapped : field.declared.isUnwrapped = true
      · simp [unwrapped]
      · by_cases member : field.tag ∈ seen
        · simp [unwrapped, member]
        · simp [unwrapped, member]

/-- Where two child elements may take their tags one after the other, they may do so in the other
order. -/
private theorem takeChild_swap {layout : Layout} {seen seen' taken both : List String}
    {first second : Child}
    (same : ∀ tag, tag ∈ seen ↔ tag ∈ seen') (takes : context.takeChild layout seen first = .ok taken)
    (takesBoth : context.takeChild layout taken second = .ok both) :
    ∃ taken' both', context.takeChild layout seen' second = .ok taken' ∧
      context.takeChild layout taken' first = .ok both' ∧ ∀ tag, tag ∈ both ↔ tag ∈ both' := by
  obtain ⟨free, rfl⟩ := takeChild_eq_ok_iff.1 takes
  obtain ⟨freeBoth, rfl⟩ := takeChild_eq_ok_iff.1 takesBoth
  simp only [List.mem_append, Option.mem_toList, not_or] at freeBoth
  refine ⟨_, _, takeChild_eq_ok_iff.2 ⟨?_, rfl⟩, takeChild_eq_ok_iff.2 ⟨?_, rfl⟩, ?_⟩
  · intro tag isTaken
    rw [← same]
    exact (freeBoth tag isTaken).2
  · intro tag isTaken
    simp only [List.mem_append, Option.mem_toList, not_or]
    constructor
    · intro isTaken'
      exact (freeBoth tag isTaken').1 isTaken
    · rw [← same]
      exact free tag isTaken
  · intro tag
    simp only [List.mem_append, same]
    exact or_left_comm

/-- Two child elements of one field that both go well are items of one list or set. -/
private theorem itemsField?_of_takes {layout : Layout} {seen taken both : List String}
    {first second : Child}
    (takes : context.takeChild layout seen first = .ok taken)
    (takesBoth : context.takeChild layout taken second = .ok both) {field : TaggedField}
    (routes : layout.elementField? first.tag.name = some field)
    (routes' : layout.elementField? second.tag.name = some field) :
    layout.itemsField? first.tag.name = some field ∧
      layout.itemsField? second.tag.name = some field := by
  obtain ⟨_, rfl⟩ := takeChild_eq_ok_iff.1 takes
  have free := (takeChild_eq_ok_iff.1 takesBoth).1
  simp only [takenTag?, routes, routes', List.mem_append, Option.mem_toList, not_or] at free
  by_cases unwrapped : field.declared.isUnwrapped = true
  · simp only [Schema.Layout.itemsField?, routes, routes', Option.filter_some, unwrapped, if_true,
      and_self]
  · simp only [if_neg unwrapped] at free
    exact absurd rfl (free field.tag rfl).1

section Children

variable {frame frame' : Frame} (layoutEq : frame'.layout = frame.layout)
variable {values values' : FieldValues} (distinct : DistinctFields context.schema)
include layoutEq distinct

private theorem carries_giveChild (child : Child)
    (bound : ∀ field, frame.layout.elementField? child.tag.name = some field →
      Option.Rel Value.Same (values.get? field.name) (values'.get? field.name)) :
    Carries (Assigns values values' ((frame.layout.elementField? child.tag.name).map (·.name)))
      (context.giveChild frame values child) (context.giveChild frame' values' child) := by
  unfold Context.giveChild
  rw [layoutEq]
  have tags : child.tag.Resembles child.tag := ⟨rfl, .inOrder⟩
  cases routes : frame.layout.elementField? child.tag.name with
  | none =>
      apply (Carries.lift (expects_passElement context child.tag child.tag (.refl child.inside))).bind
      intro _ _ _
      exact .pure .nothing
  | some field =>
      exact carries_field tags distinct (resembles_element distinct (.refl child.inside) _)
        (bound field routes)

/-- Two child elements of different fields may give them their values in either order. -/
private theorem carries_giveChild_swap (names : DistinctNames frame.layout) {first second : Child}
    (apart : ∀ field, frame.layout.elementField? first.tag.name = some field →
      frame.layout.elementField? second.tag.name ≠ some field) (same : FieldsSame values values') :
    Carries FieldsSame
      (context.giveChild frame values first >>= fun values => context.giveChild frame values second)
      (context.giveChild frame' values' second >>= fun values =>
        context.giveChild frame' values first) := by
  have differ (name : String)
      (isFirst : (frame.layout.elementField? first.tag.name).map (·.name) = some name) :
      (frame.layout.elementField? second.tag.name).map (·.name) ≠ some name := by
    intro isSecond
    obtain ⟨field, routes, rfl⟩ := Option.map_eq_some_iff.1 isFirst
    obtain ⟨other, routes', sameName⟩ := Option.map_eq_some_iff.1 isSecond
    have sameField := names.eq_of_name_eq (frame.layout.mem_fields_of_elementField? routes')
      (frame.layout.mem_fields_of_elementField? routes) sameName
    exact apart field routes (routes'.trans (congrArg some sameField))
  intro session session' found runs
  obtain ⟨between, later, firstRuns, secondRuns⟩ := Read.bind_eq_ok runs
  obtain ⟨_, _, assigns⟩ := carries_giveChild rfl distinct first
    (fun field _ => FieldsSame.refl values field.name) session session _ firstRuns
  have boundSecond (field : TaggedField)
      (routes : frame.layout.elementField? second.tag.name = some field) :
      Option.Rel Value.Same (between.get? field.name) (values'.get? field.name) := by
    rw [(assigns.get?_of_ne fun isFirst => differ _ isFirst (by rw [routes]; rfl)).1]
    exact same field.name
  obtain ⟨⟨between', later'⟩, secondRuns', assignsSecond⟩ :=
    carries_giveChild layoutEq distinct second boundSecond later session' _ secondRuns
  have boundFirst (field : TaggedField)
      (routes : frame.layout.elementField? first.tag.name = some field) :
      Option.Rel Value.Same (values.get? field.name) (between'.get? field.name) := by
    rw [(assignsSecond.get?_of_ne (differ _ (by rw [routes]; rfl))).2]
    exact same field.name
  obtain ⟨found', firstRuns', assignsFirst⟩ :=
    carries_giveChild layoutEq distinct first boundFirst session later' _ firstRuns
  refine ⟨found', ?_, assignsFirst.swap same assignsSecond differ⟩
  rw [Read.bind_of_ok secondRuns']
  exact firstRuns'

end Children

section Orders

variable {layout : Layout} (names : DistinctNames layout) (distinct : DistinctFields context.schema)
include names distinct

/-- Two neighbours may change places, unless both are items of one list or set. -/
private theorem carries_swap {first second : Child} (rest : Content)
    (free : ∀ field, layout.itemsField? first.tag.name = some field →
      layout.itemsField? second.tag.name ≠ some field) :
    RoleCarries context (.entity layout)
      (.element first.tag first.inside (.element second.tag second.inside rest))
      (.element second.tag second.inside (.element first.tag first.inside rest)) := by
  rintro frame frame' values values' seen seen' rfl layoutEq same seenSame session session' found runs
  rw [readChildren_cons] at runs
  obtain ⟨taken, takes, runs⟩ := Read.lift_bind_eq_ok runs
  obtain ⟨between, later, firstRuns, runs⟩ := Read.bind_eq_ok runs
  rw [readChildren_cons] at runs
  obtain ⟨both, takesBoth, runs⟩ := Read.lift_bind_eq_ok runs
  obtain ⟨after, last, secondRuns, runs⟩ := Read.bind_eq_ok runs
  have apart (field : TaggedField)
      (routes : frame.layout.elementField? first.tag.name = some field) :
      frame.layout.elementField? second.tag.name ≠ some field := by
    intro routes'
    obtain ⟨isItem, isItem'⟩ := itemsField?_of_takes takes takesBoth routes routes'
    exact free field isItem isItem'
  obtain ⟨taken', both', takes', takesBoth', bothSame⟩ := takeChild_swap seenSame takes takesBoth
  have twoRun := (Read.bind_of_ok firstRuns fun values => context.giveChild frame values second).trans
    secondRuns
  obtain ⟨⟨after', last'⟩, twoRun', afterSame⟩ :=
    carries_giveChild_swap layoutEq distinct names apart same session session' _ twoRun
  obtain ⟨between', later', secondRuns', firstRuns'⟩ := Read.bind_eq_ok twoRun'
  obtain ⟨found', runs', foundSame⟩ := resembles_carries distinct (.refl rest) (.entity frame.layout)
    frame frame' after after' both both' rfl layoutEq afterSame bothSame last last' found runs
  refine ⟨found', ?_, foundSame⟩
  rw [readChildren_cons, layoutEq, takes', Read.lift_ok_bind, Read.bind_of_ok secondRuns',
    readChildren_cons, layoutEq, takesBoth', Read.lift_ok_bind, Read.bind_of_ok firstRuns']
  exact runs'

omit names distinct in
theorem RoleCarries.trans {content content' content'' : Content}
    (first : RoleCarries context (.entity layout) content content')
    (second : RoleCarries context (.entity layout) content' content'') :
    RoleCarries context (.entity layout) content content'' := by
  intro frame frame' values values' seen seen' isLayout isLayout' same seenSame
  exact (first frame frame values values seen seen isLayout isLayout (.refl values) fun _ => Iff.rfl).trans
    (second frame frame' values values' seen seen' isLayout isLayout' same seenSame)
    fun _ _ _ left right => left.trans right

private theorem rearranged_carries {children children' : List Child}
    (rearranged : Rearranged (fun child => layout.itemsField? child.tag.name) children children') :
    RoleCarries context (.entity layout) (Content.ofChildren children)
      (Content.ofChildren children') := by
  induction rearranged with
  | refl children => exact resembles_carries distinct (.refl _) _
  | cons child _ ih =>
      exact RoleCarries.element ⟨rfl, .inOrder⟩ distinct
        (resembles_element distinct (.refl child.inside) _) ih
  | swap first second rest free => exact carries_swap names distinct (Content.ofChildren rest) free
  | trans _ _ ih ih' => exact ih.trans ih'

omit names distinct in
private theorem readChildren_ofChildren (frame : Frame) (values : FieldValues) (seen : List String)
    {content : Content} (complete : content.break? = none)
    (blank : context.strict = true → ∀ word ∈ content.words, Text.isBlankText word = true) :
    context.readChildren frame values seen content =
      context.readChildren frame values seen (Content.ofChildren content.children) := by
  induction content generalizing values seen with
  | closed encoding => rfl
  | broken ending => cases complete
  | text position text rest ih =>
      have passed : context.passText position text = .ok () :=
        (passText_eq_ok_iff context).2 fun strict => blank strict text List.mem_cons_self
      have blankRest (strict : context.strict = true) : ∀ word ∈ rest.words, Text.isBlankText word = true :=
        fun word member => blank strict word (List.mem_cons_of_mem text member)
      simp only [Context.readChildren]
      rw [passed, Read.lift_ok_bind]
      exact ih values seen complete blankRest
  | element tag inside rest _ ih =>
      have head (rest : Content) :=
        @readChildren_cons context frame values seen ⟨tag, inside⟩ rest
      rw [head rest, Content.children, Content.ofChildren, List.foldr_cons, head]
      congr 1
      funext seen
      congr 1
      funext values
      exact ih values seen complete blank

omit names distinct in
private theorem complete_of_readChildren {frame : Frame} {values : FieldValues} {seen : List String}
    {content : Content} {session : Session} {found : FieldValues × Session}
    (runs : context.readChildren frame values seen content session = .ok found) :
    content.break? = none ∧
      (context.strict = true → ∀ word ∈ content.words, Text.isBlankText word = true) := by
  induction content generalizing values seen session with
  | closed encoding => exact ⟨rfl, fun _ _ => nofun⟩
  | broken ending => cases runs
  | text position text rest ih =>
      simp only [Context.readChildren] at runs
      obtain ⟨_, passed, runs⟩ := Read.lift_bind_eq_ok runs
      obtain ⟨complete, blank⟩ := ih runs
      refine ⟨complete, ?_⟩
      intro strict word member
      rcases List.mem_cons.1 member with rfl | later
      · exact (passText_eq_ok_iff context).1 passed strict
      · exact blank strict word later
  | element tag inside rest _ ih =>
      rw [readChildren_cons frame values seen ⟨tag, inside⟩] at runs
      obtain ⟨_, _, runs⟩ := Read.lift_bind_eq_ok runs
      obtain ⟨_, _, _, runs⟩ := Read.bind_eq_ok runs
      exact ih runs

/-- An entity whose child elements stand in another order. -/
private theorem rearranges_carries {content content' : Content}
    (rearranges : Rearranges layout.itemsField? content content') :
    RoleCarries context (.entity layout) content content' := by
  intro frame frame' values values' seen seen' isLayout isLayout' same seenSame session session' found runs
  obtain ⟨complete, blank⟩ := complete_of_readChildren runs
  cases rearranges with
  | broken breaks content' =>
      rw [complete] at breaks
      cases breaks
  | children complete' before permutes after words =>
      have blank' (strict : context.strict = true) :
          ∀ word ∈ content'.words, Text.isBlankText word = true := words (blank strict)
      rw [readChildren_ofChildren frame values seen complete blank] at runs
      rw [readChildren_ofChildren frame' values' seen' complete' blank']
      have carries {children children' : List Child}
          (each : List.Forall₂ Child.Resembles children children') :
          RoleCarries context (.entity layout) (Content.ofChildren children)
            (Content.ofChildren children') :=
        resembles_carries distinct (.ofChildren each) _
      have ordered := (carries before).trans (rearranged_carries names distinct permutes.rearranged)
      exact ordered.trans (carries after) frame frame' values values' seen seen' isLayout isLayout' same
        seenSame session session' found runs

end Orders

/-! ### Documents -/

def Role.Known (schema : Schema) (role : Role) : Prop :=
  ∀ layout, role = .entity layout → IsLayout schema layout

section Roles

variable {schema : Schema} {role : Role}

private theorem known_of_entityRole? {className : String}
    (found : entityRole? schema className = some role) :
    role.Known schema := by
  rintro layout rfl
  obtain ⟨found, foundEq, _, same⟩ := entityRole?_eq_some_iff.1 found
  cases same
  exact isLayout_of_layout? foundEq

private theorem known_of_itemRole? {type : Schema.ItemType}
    (found : itemRole? schema type = some role) :
    role.Known schema := by
  cases type with
  | entity className => exact known_of_entityRole? found
  | scalar type => cases found

private theorem known_of_child? {outer : Role} {name : String}
    (found : outer.child? schema name = some role) : role.Known schema := by
  cases outer with
  | entity layout =>
      obtain ⟨field, _, found⟩ := Option.bind_eq_some_iff.1 found
      unfold fieldRole? at found
      split at found
      · cases found
      · exact known_of_entityRole? found
      · cases found
        intro _ same
        cases same
      · exact known_of_itemRole? found
      · cases found
        intro _ same
        cases same
  | items itemTag type =>
      simp only [Role.child?] at found
      split at found
      · exact known_of_itemRole? found
      · cases found
  | entries encoding itemTag =>
      cases encoding with
      | inline => cases found
      | explode =>
          simp only [Role.child?] at found
          split at found
          · cases found
            intro _ same
            cases same
          · cases found
  | entry => cases found

theorem Leads.known {className : String} {path : List String}
    (leads : Leads schema className path role) : role.Known schema := by
  obtain ⟨first, firstEq, leads⟩ := leads
  have known := known_of_entityRole? firstEq
  clear firstEq
  induction path generalizing first with
  | nil =>
      cases leads
      exact known
  | cons name path ih =>
      rw [List.foldlM_cons] at leads
      obtain ⟨next, nextEq, leads⟩ := Option.bind_eq_some_iff.1 leads
      exact ih next leads (known_of_child? nextEq)

theorem Leads.distinctNames {className : String} {path : List String} {layout : Layout}
    (leads : Leads schema className path (.entity layout)) (distinct : DistinctFields schema) :
    DistinctNames layout := by
  obtain ⟨resolved, member, rfl⟩ := leads.known layout rfl
  exact distinct resolved member

end Roles

section Documents

variable (distinct : DistinctFields context.schema) {className : String} {document document' : Document}
include distinct

theorem readDocument_resembles (resembles : document.Resembles document') :
    Expects none (fun graph graph' => graph.root.Same graph'.root)
      (context.readDocument className document) (context.readDocument className document') := by
  cases resembles with
  | empty ending document' =>
      unfold Context.readDocument
      cases context.schema.layout? className with
      | none => exact .failed
      | some layout => cases ending <;> exact .failed
  | rooted tags inside =>
      exact readDocument_carries distinct tags (resembles_element distinct inside _)

theorem readDocument_rearranged {path : List String} {layout : Layout}
    (leads : Leads context.schema className path (.entity layout))
    (edited : document.Edited (Rearranges layout.itemsField?) path document') :
    Expects none (fun graph graph' => graph.root.Same graph'.root)
      (context.readDocument className document) (context.readDocument className document') := by
  have names := leads.distinctNames distinct
  obtain ⟨first, firstEq, leads⟩ := leads
  cases edited with
  | @rooted root position' inside inside' edited =>
      have carries := edited_carries distinct edited leads fun content content' rearranges =>
        rearranges_carries names distinct rearranges
      apply readDocument_carries distinct (root.resembles_at position')
      rw [firstEq]
      exact ⟨fun role isRole => by cases isRole; exact carries, fun noRole => by cases noRole⟩

end Documents

end Trellis.Reading
