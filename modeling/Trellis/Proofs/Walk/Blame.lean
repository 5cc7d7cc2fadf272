import Trellis.Proofs.Reading.Reports
import Trellis.Proofs.Walk.Courses
import Trellis.Proofs.Walk.Document

/-!
Errors point at the token that is to blame.

Every reader is entered on a start tag of an element that is for what it reads.  It leaves the elements
around that one open, or it ends with an error that says what is wrong with the tokens passed so far,
the last of which is the one at which it was noticed.  So it is with the elements inside, and with the
read of a whole document.
-/

namespace Trellis.Reading

open Trellis.Graph (Entity Tree Value)
open Markup (Tag Token TokenKind TokenStream tokenize)
open Schema (Collection Field ItemType Layout MapEncoding ScalarType TaggedField)

/-! ### Walks that end with a value or with blame -/

/-- Wherever the walk ends, a value comes with a cursor as told, and an error is blamed on what the
cursor has passed. -/
def Course.Leads {α : Type} (course : Course) (walk : Walk α) (walker : Walker)
    (arrives : α → Cursor → Prop) : Prop :=
  ∀ outcome last, walk walker = some (outcome, last) → course.Comes (outcome, last.cursor) arrives

namespace Course.Leads

variable {course : Course} {α β : Type} {walk : Walk α} {next : α → Walk β} {walker : Walker}
variable {arrives middle : α → Cursor → Prop} {ends : β → Cursor → Prop}

theorem of_pure {value : α} (here : arrives value walker.cursor) :
    course.Leads (pure value) walker arrives := by
  intro outcome last walkEq
  cases walkEq
  exact here

theorem of_throw {error : ReadError} (blamed : course.Blamed walker.cursor error) :
    course.Leads (throw error : Walk α) walker arrives := by
  intro outcome last walkEq
  cases walkEq
  exact blamed

private theorem of_still_throw {error : ReadError} (blamed : course.Blamed walker.cursor error) :
    course.Leads (Walk.still (throw error : Read α)) walker arrives := by
  intro outcome last walkEq
  cases walkEq
  exact blamed

theorem weaken {weaker : α → Cursor → Prop} (leads : course.Leads walk walker arrives)
    (implies : ∀ value cursor, arrives value cursor → weaker value cursor) :
    course.Leads walk walker weaker := by
  intro outcome last walkEq
  have comes := leads outcome last walkEq
  cases outcome with
  | error error => exact comes
  | ok value => exact implies value last.cursor comes

theorem bind (first : course.Leads walk walker middle)
    (second : ∀ value last, middle value last.cursor → course.Leads (next value) last ends) :
    course.Leads (walk >>= next) walker ends := by
  intro outcome last walkEq
  rw [bind_apply] at walkEq
  cases firstEq : walk walker with
  | none =>
      rw [firstEq] at walkEq
      cases walkEq
  | some found =>
      obtain ⟨found, between⟩ := found
      have comes := first found between firstEq
      rw [firstEq] at walkEq
      cases found with
      | error error =>
          cases walkEq
          exact comes
      | ok value => exact second value between comes outcome last walkEq

theorem of_move {go : Cursor → Cursor.Outcome α} (comes : course.Comes (go walker.cursor) arrives) :
    course.Leads (Walk.move go) walker arrives := by
  intro outcome last walkEq
  cases walkEq
  exact comes

theorem of_still {read : Read α} {property : α → Prop}
    (errs : ReadErrsIn (course.Blamed walker.cursor) read) (ensures : Ensures read property) :
    course.Leads (Walk.still read) walker fun value cursor => cursor = walker.cursor ∧ property value := by
  intro outcome last walkEq
  unfold Walk.still at walkEq
  cases readEq : read walker.session with
  | error error =>
      rw [readEq] at walkEq
      cases walkEq
      exact errs walker.session error readEq
  | ok found =>
      obtain ⟨value, session⟩ := found
      rw [readEq] at walkEq
      cases walkEq
      exact ⟨rfl, ensures walker.session value session readEq⟩

theorem still_bind {read : Read α} {property : α → Prop}
    (errs : ReadErrsIn (course.Blamed walker.cursor) read) (ensures : Ensures read property)
    (second : ∀ value session, property value →
      course.Leads (next value) ⟨walker.cursor, session⟩ ends) :
    course.Leads (Walk.still read >>= next) walker ends := by
  apply (of_still errs ensures).bind
  rintro value ⟨_, session⟩ ⟨rfl, holds⟩
  exact second value session holds

private theorem quiet_bind {read : Read α} (errs : ReadErrsIn (course.Blamed walker.cursor) read)
    (second : ∀ value session, course.Leads (next value) ⟨walker.cursor, session⟩ ends) :
    course.Leads (course.context.walking.still read >>= next) walker ends :=
  still_bind errs (fun _ _ _ _ => trivial) fun value session (_ : True) => second value session

theorem look {view : Cursor → α} (follows : course.Leads (next (view walker.cursor)) walker ends) :
    course.Leads (Walk.look view >>= next) walker ends := by
  intro outcome last walkEq
  rw [bind_apply] at walkEq
  exact follows outcome last walkEq

theorem tag {next : Tag → Walk β} (follows : course.Leads (next walker.cursor.tag) walker ends) :
    course.Leads (course.context.walking.tag >>= next) walker ends :=
  look follows

theorem of_stuck : course.Leads (Walk.stuck : Walk α) walker arrives := by
  intro outcome last walkEq
  cases walkEq

theorem loop {walk : Nat → Walk α} (leads : ∀ steps, course.Leads (walk steps) walker arrives) :
    course.Leads (Walk.loop walk) walker arrives :=
  leads _

end Course.Leads

namespace Course

/-- From the start tag on, the walk goes to the end of the element or ends with blame. -/
def Completes {α : Type} (course : Course) (walk : Walk α) (walker : Walker)
    (outer : List OpenElement) : Prop :=
  course.Leads walk walker fun _ => course.Within outer

variable {course : Course} {walker : Walker} {tag : Tag} {opened outer : List OpenElement}

theorem Completes.bind {α β : Type} {walk : Walk α} {next : α → Walk β} {ends : β → Cursor → Prop}
    (first : course.Completes walk walker outer)
    (second : ∀ value last, course.Within outer last.cursor → course.Leads (next value) last ends) :
    course.Leads (walk >>= next) walker ends :=
  Leads.bind first second

private theorem completes_pure {α : Type} {value : α} (within : course.Within outer walker.cursor) :
    course.Completes (pure value) walker outer :=
  Leads.of_pure within

private theorem completes_still {α : Type} {read : Read α} (within : course.Within outer walker.cursor)
    (errs : ReadErrsIn (course.Blamed walker.cursor) read) :
    course.Completes (Walk.still read) walker outer := by
  have nothing : Ensures read fun _ => True := fun _ _ _ _ => trivial
  apply (Leads.of_still errs nothing).weaken
  rintro value cursor ⟨rfl, _⟩
  exact within

/-! ### Loops over tokens -/

private theorem leads_nextTag {α : Type} {next : Mark → Walk α} {arrives : α → Cursor → Prop}
    (within : course.Within opened walker.cursor)
    (opening : ∀ tag last, course.OnTag tag opened last.cursor →
      course.Leads (next .opening) last arrives)
    (closing : ∀ last, course.Within opened.tail last.cursor →
      course.Leads (next .closing) last arrives) :
    course.Leads (Walk.move (Cursor.nextTag course.context.strict) >>= next) walker arrives := by
  apply (Leads.of_move within.nextTag_comes).bind
  intro mark last atTag
  cases atTag with
  | opening onTag => exact opening _ last onTag
  | closing within => exact closing last within

structure AtEnd (course : Course) (cursor : Cursor) : Prop where
  rest_eq : cursor.rest = []
  finished : ∃ first again encoding, course.stream.ending = .finished first again encoding ∧
    cursor.location = course.context.locate first

private theorem leads_next {α : Type} {next : Mark → Walk α} {arrives : α → Cursor → Prop}
    {passed : List Token} (standing : course.Passed passed walker.cursor)
    (token : ∀ token rest, walker.cursor.rest = token :: rest →
      course.Leads (next (Cursor.markOf token)) ⟨walker.cursor.onto token rest, walker.session⟩ arrives)
    (finished : ∀ last, course.AtEnd last.cursor → course.Leads (next .finished) last arrives) :
    course.Leads (Walk.move Cursor.next >>= next) walker arrives := by
  intro outcome last walkEq
  rw [bind_apply] at walkEq
  cases restEq : walker.cursor.rest with
  | cons first rest =>
      simp only [Walk.move, Cursor.next, restEq] at walkEq
      exact token first rest restEq outcome last walkEq
  | nil =>
      simp only [Walk.move, Cursor.next, restEq, Cursor.atEnd] at walkEq
      have tokensEq := standing.tokens_eq
      rw [restEq, List.append_nil] at tokensEq
      cases endingEq : walker.cursor.ending with
      | failed error =>
          simp only [endingEq] at walkEq
          cases walkEq
          rw [standing.ending_eq] at endingEq
          refine ⟨course.stream.tokens, ?_, .markup endingEq⟩
          simp only [restEq, List.append_nil]
      | finished first again encoding =>
          simp only [endingEq] at walkEq
          rw [standing.ending_eq] at endingEq
          refine finished _ ⟨rfl, first, again, encoding, endingEq, ?_⟩ outcome last walkEq
          simp only [Cursor.location, Cursor.onEnd, Context.locate, standing.source_eq]

theorem AtEnd.blamed {cursor : Cursor} (atEnd : course.AtEnd cursor) {error : ReadError}
    (blames : Blames course course.stream.tokens error) : course.Blamed cursor error := by
  refine ⟨course.stream.tokens, ?_, blames⟩
  rw [atEnd.rest_eq, List.append_nil]

/-! ### Readers without classes -/

private theorem completes_nextText (onTag : course.OnTag tag outer walker.cursor) :
    course.Completes (Walk.move Cursor.nextText) walker outer :=
  (Leads.of_move onTag.nextText_comes).weaken fun _ _ behind => behind.within

private theorem completes_skipElement (onTag : course.OnTag tag outer walker.cursor) :
    course.Completes (Walk.move Cursor.skipElement) walker outer :=
  Leads.of_move onTag.skipElement_comes

private theorem completes_tree {parts : Walk (String × List Tree)}
    (completes : course.Completes parts walker outer) :
    course.Completes (Walk.tokens.tree parts) walker outer := by
  apply Leads.look
  apply completes.bind
  intro found last within
  exact completes_pure within

private theorem completes_parts (steps : Nat) (text : String) (children : List Tree)
    {innermost : OpenElement} (within : course.Within (innermost :: outer) walker.cursor) :
    course.Completes (walkParts steps text children) walker outer := by
  induction steps generalizing text children innermost outer walker with
  | zero => exact Leads.of_stuck
  | succ steps ih =>
      obtain ⟨passed, standing, openedEq⟩ := within
      apply leads_next standing
      · intro token rest restEq
        have there := standing.onto restEq
        cases kind : token.kind with
        | opening name attributes =>
            simp only [Cursor.markOf, kind]
            have onTag := standing.onTag restEq kind
            rw [openedEq] at onTag
            have inside : course.Completes (walkParts steps "" [])
                ⟨walker.cursor.onto token rest, walker.session⟩ (innermost :: outer) :=
              ih "" [] onTag.within
            exact (completes_tree inside).bind fun child last within => ih _ _ within
        | closing name =>
            simp only [Cursor.markOf, kind]
            have behind := standing.onto_closing restEq kind
            rw [openedEq] at behind
            exact Leads.of_pure behind
        | text content =>
            simp only [Cursor.markOf, kind]
            change course.Leads (Walk.look (·.current.text) >>= _) _ _
            apply Leads.look
            have further := there.within
            rw [opened_concat, openAfter_of_text kind, openedEq] at further
            exact ih _ _ further
      · intro last atEnd
        obtain ⟨first, again, encoding, endingEq, placeEq⟩ := atEnd.finished
        apply Leads.look
        rw [placeEq]
        exact Leads.of_throw (atEnd.blamed (.unexpectedEnd endingEq))

private theorem completes_walkTree (onTag : course.OnTag tag outer walker.cursor) :
    course.Completes walkTree walker outer :=
  completes_tree (Leads.loop fun steps => completes_parts steps "" [] onTag.within)

/-- The text is blamed on the start tag of its element. -/
theorem BehindText.blamed {cursor : Cursor} {text : String} {field : Field} {type : ScalarType}
    (behind : course.BehindText tag outer text cursor)
    (takesText : (course.purposeOf outer tag.name).TakesText course.context.schema field type)
    (unread : scalarOf? field type (fieldText field text) = none) :
    course.Blamed cursor
      (.coercion field.name type (fieldText field text) (course.context.locate tag.position)) := by
  obtain ⟨front, opening, inside, closing, texts, name, standing, isStart, rfl, insideEq, closingKind,
    rfl⟩ := behind
  exact ⟨_, standing.tokens_eq, .coercion isStart insideEq closingKind takesText unread⟩

private theorem completes_scalar (onTag : course.OnTag tag outer walker.cursor) {field : Field}
    {type : ScalarType}
    (takesText : (course.purposeOf outer tag.name).TakesText course.context.schema field type) :
    course.Completes (course.context.walking.scalar field type) walker outer := by
  unfold Access.scalar
  apply Leads.tag
  rw [onTag.1]
  by_cases isTree : type = .tree
  · subst isTree
    apply (completes_walkTree onTag).bind
    intro tree last within
    exact completes_pure within
  · have textual : course.Completes (Walk.move Cursor.nextText >>= fun text =>
        Walk.still (liftM (coerce course.context.strict field type text
          (course.context.locate tag.position)))) walker outer := by
      apply (Leads.of_move onTag.nextText_comes).bind
      intro text last behind
      exact completes_still behind.within
        (.lift (coerce_errsIn fun unread => behind.blamed takesText unread))
    cases type <;> first | exact textual | exact absurd rfl isTree

private theorem completes_unknown (onTag : course.OnTag tag outer walker.cursor)
    (unclaimed : course.purposeOf outer tag.name = .none) :
    course.Completes course.context.walking.unknown walker outer := by
  unfold Access.unknown
  apply Leads.tag
  rw [onTag.1]
  split
  · rename_i strict
    exact Leads.of_still_throw (onTag.blamed_element (.unknown strict unclaimed))
  · exact completes_skipElement onTag

/-! ### Maps -/

private theorem completes_part (onTag : course.OnTag tag outer walker.cursor) (field : Field)
    (parts : EntryParts) :
    course.Completes (course.context.walking.part field parts) walker outer := by
  unfold Access.part
  apply Leads.tag
  split
  · exact (completes_nextText onTag).bind fun text last within => completes_pure within
  · split
    · exact (completes_nextText onTag).bind fun text last within => completes_pure within
    · exact (completes_skipElement onTag).bind fun _ last within => completes_pure within

private theorem completes_walkEntryParts (field : Field) (steps : Nat) (parts : EntryParts)
    {innermost : OpenElement} (within : course.Within (innermost :: outer) walker.cursor) :
    course.Completes (course.context.walkEntryParts field steps parts) walker outer := by
  induction steps generalizing parts walker with
  | zero => exact Leads.of_stuck
  | succ steps ih =>
      apply leads_nextTag within
      · intro tag last onTag
        exact (completes_part onTag field parts).bind fun parts last within => ih parts within
      · intro last within
        exact Leads.of_pure within

private theorem completes_mapItem (id : EntityId) (field : TaggedField) (encoding : MapEncoding)
    (entries : OrderedMap String String) {innermost : OpenElement}
    (isMap : innermost.purpose = .entries field encoding)
    (onTag : course.OnTag tag (innermost :: outer) walker.cursor) :
    course.Completes
      (course.context.walking.mapItem id field encoding entries
        (course.context.walkEntry field.declared))
      walker (innermost :: outer) := by
  unfold Access.mapItem
  apply Leads.tag
  rw [onTag.1]
  cases encoding with
  | inline =>
      apply (completes_nextText onTag).bind
      intro text last within
      exact Leads.quiet_bind .modify fun _ session => Leads.of_pure within
  | explode =>
      simp only
      split
      · have entry : course.Completes (course.context.walkEntry field.declared) walker
            (innermost :: outer) :=
          Leads.loop fun steps => completes_walkEntryParts field.declared steps {} onTag.within
        apply entry.bind
        intro parts last within
        exact Leads.quiet_bind .modify fun _ session => Leads.of_pure within
      · rename_i other
        have unclaimed : course.purposeOf (innermost :: outer) tag.name = .none := by
          simp only [purposeOf, isMap, Purpose.inner, if_neg other]
        exact (completes_unknown onTag unclaimed).bind fun _ last within => completes_pure within

private theorem completes_walkEntries (id : EntityId) (field : TaggedField) (encoding : MapEncoding)
    (steps : Nat) (entries : OrderedMap String String) {innermost : OpenElement}
    (isMap : innermost.purpose = .entries field encoding)
    (within : course.Within (innermost :: outer) walker.cursor) :
    course.Completes (course.context.walkEntries id field encoding steps entries) walker outer := by
  induction steps generalizing entries walker with
  | zero => exact Leads.of_stuck
  | succ steps ih =>
      apply leads_nextTag within
      · intro tag last onTag
        exact (completes_mapItem id field encoding entries isMap onTag).bind
          fun entries last within => ih entries within
      · intro last within
        exact Leads.of_pure within

private theorem completes_walkMap (onTag : course.OnTag tag outer walker.cursor) (frame : Frame)
    (values : FieldValues) {field : TaggedField} {encoding : MapEncoding}
    (isMap : course.purposeOf outer tag.name = .entries field encoding) :
    course.Completes (course.context.walkMap frame values field encoding) walker outer := by
  unfold Context.walkMap Access.map
  apply Leads.tag
  apply Leads.quiet_bind .modify
  intro _ session
  have entries : course.Completes (Walk.loop fun steps =>
      course.context.walkEntries frame.id field encoding steps []) ⟨walker.cursor, session⟩ outer :=
    Leads.loop fun steps => completes_walkEntries frame.id field encoding steps [] isMap onTag.within
  exact entries.bind fun entries last within => completes_pure within

/-! ### Start tags -/

private theorem defaultValues_startError {context : Context} {className : String} {layout : Layout}
    (known : context.schema.layout? className = some layout) (tag : Tag) :
    ErrsIn (StartError context className tag)
      (defaultValues layout (context.locate tag.position)) := by
  apply defaultValues_errsIn
  intro field member values
  unfold withDefault
  split
  · rename_i text type given typed
    split
    · exact .ok
    · exact ErrsIn.map (coerce_errsIn fun unread => .default known member given typed unread)
  · exact .ok

private theorem requireAttributes_startError {context : Context} {className : String} {frame : Frame}
    {tag : Tag} (known : context.schema.layout? className = some frame.layout)
    (isThere : frame.location = context.locate tag.position) :
    ErrsIn (StartError context className tag) (context.requireAttributes frame tag) := by
  unfold Context.requireAttributes
  rw [isThere]
  simp only
  split
  · rename_i field found
    split at found
    · have missing := List.find?_some found
      simp only [Bool.and_eq_true, Bool.not_eq_true', List.any_eq_false, beq_iff_eq] at missing
      exact .error (.missingAttribute known (List.mem_of_find?_eq_some found) missing.2)
    · cases found
  · exact .ok

private theorem beginEntity_startError (context : Context) (className : String) (tag : Tag)
    (atRoot : Bool) :
    ReadErrsIn (StartError context className tag) (context.beginEntity className tag atRoot) := by
  unfold Context.beginEntity
  cases foundEq : context.schema.find? className with
  | none => exact .throw (.unknownClass foundEq)
  | some resolved =>
      have known : context.schema.layout? className = some resolved.layout := by
        rw [Schema.layout?, foundEq]
        rfl
      simp only
      split
      · exact .throw .abstractClass
      have newId : ReadErrsIn (StartError context className tag)
          (newEntity (context.locate tag.position)) := fun _ => .ok
      apply newId.andThen
      intro id
      apply (ReadErrsIn.lift (defaultValues_startError known tag)).andThen
      intro values
      have attributes : ReadErrsIn (StartError context className tag)
          (context.readAttributes ⟨id, resolved.layout, context.locate tag.position⟩ tag atRoot values
            tag.attributes) := by
        apply readAttributes_errsIn
        · intro pair member unclaimed _
          exact .unknownAttribute known member unclaimed
        · intro pair member field type claimed typed
          exact coerce_errsIn fun unread => .attribute known member claimed typed unread
      apply attributes.andThen
      intro values
      exact (ReadErrsIn.lift (requireAttributes_startError known rfl)).andThen fun _ => .pure

/-! ### Entities and their children -/

private theorem completes_content (onTag : course.OnTag tag outer walker.cursor) (frame : Frame)
    (values : FieldValues) {className : String} {field : TaggedField}
    (isEntity : course.purposeOf outer tag.name = .entity className)
    (known : course.context.schema.layout? className = some frame.layout)
    (contentEq : frame.layout.contentField? = some field) :
    course.Completes (course.context.walking.content frame values field) walker outer := by
  unfold Access.content
  cases typeEq : field.declared.scalarType? with
  | none => exact (completes_skipElement onTag).bind fun _ last within => completes_pure within
  | some type =>
      have takesText : (course.purposeOf outer tag.name).TakesText course.context.schema
          field.declared type := by
        rw [isEntity]
        exact ⟨frame.layout, field, known, contentEq, rfl, typeEq⟩
      apply (completes_scalar onTag takesText).bind
      intro value last within
      exact Leads.quiet_bind .modify fun _ session => Leads.of_pure within

def CompletesChildren (course : Course) (children : ChildrenOf Walk) (cursor : Cursor)
    (outer : List OpenElement) : Prop :=
  ∀ tag className frame values session,
    course.Within (⟨tag, .entity className⟩ :: outer) cursor →
      course.context.schema.layout? className = some frame.layout →
      frame.layout.contentField? = none →
      course.Completes (children frame values) ⟨cursor, session⟩ outer

def CompletesItems (course : Course) (field : TaggedField) (items : ItemsOf Walk) (cursor : Cursor)
    (outer : List OpenElement) : Prop :=
  ∀ tag collection type session, course.Within (⟨tag, .items field type⟩ :: outer) cursor →
    course.Completes (items collection type) ⟨cursor, session⟩ outer

private theorem takeTag_errs {field : TaggedField} {seen : List String}
    (onTag : course.OnTag tag outer walker.cursor) :
    ErrsIn (course.Blamed walker.cursor) (course.context.takeTag field seen tag) := by
  unfold Context.takeTag
  split
  · exact .ok
  · split
    · exact .error (onTag.blamed_element .duplicate)
    · exact .ok

section Readers

variable {children : ChildrenOf Walk} {items : ItemsOf Walk}
variable (onTag : course.OnTag tag outer walker.cursor)
variable (childrenComplete : course.CompletesChildren children walker.cursor outer)
include onTag childrenComplete

private theorem completes_walkEntity {className : String} (atRoot : Bool)
    (isEntity : course.purposeOf outer tag.name = .entity className) :
    course.Completes (course.context.walkEntity className atRoot children) walker outer := by
  unfold Context.walkEntity
  apply Leads.tag
  rw [onTag.1]
  have errs : ReadErrsIn (course.Blamed walker.cursor)
      (course.context.beginEntity className tag atRoot) := fun session =>
    (beginEntity_startError course.context className tag atRoot session).weaken
      fun _ startError => onTag.blamed_start isEntity startError
  apply Leads.still_bind errs (beginEntity_layout className tag atRoot)
  rintro ⟨frame, values⟩ session known
  simp only
  cases contentEq : frame.layout.contentField? with
  | none =>
      have within := onTag.within
      rw [isEntity] at within
      have completes := childrenComplete tag className frame values session within known contentEq
      exact completes.bind fun values last within => completes_pure within
  | some field =>
      have standsStill : course.OnTag tag outer (Walker.mk walker.cursor session).cursor := onTag
      have completes := completes_content standsStill frame values isEntity known contentEq
      exact completes.bind fun values last within => completes_pure within

private theorem completes_item {field : TaggedField} {type : ItemType}
    (isItem : course.purposeOf outer tag.name = itemPurpose field.declared type) :
    course.Completes (course.context.walking.item field type children) walker outer := by
  apply Leads.tag
  cases type with
  | entity className =>
      exact (completes_walkEntity onTag childrenComplete false isItem).bind
        fun entity last within => completes_pure within
  | scalar type =>
      have takesText : (course.purposeOf outer tag.name).TakesText course.context.schema
          field.declared type := by
        rw [isItem]
        exact ⟨rfl, rfl⟩
      exact (completes_scalar onTag takesText).bind fun value last within => completes_pure within

private theorem completes_walkField (frame : Frame) (values : FieldValues) {field : TaggedField}
    (isField : course.purposeOf outer tag.name = fieldPurpose field)
    (itemsComplete : course.CompletesItems field items walker.cursor outer) :
    course.Completes (course.context.walkField frame values field children items) walker outer := by
  unfold Context.walkField
  unfold fieldPurpose at isField
  apply Leads.tag
  cases kind : field.declared.kind with
  | scalar type =>
      rw [kind] at isField
      have takesText : (course.purposeOf outer tag.name).TakesText course.context.schema
          field.declared type := by
        rw [isField]
        exact ⟨rfl, rfl⟩
      apply (completes_scalar onTag takesText).bind
      intro value last within
      exact Leads.quiet_bind .modify fun _ session => Leads.of_pure within
  | one target =>
      rw [kind] at isField
      exact (completes_walkEntity onTag childrenComplete false isField).bind
        fun entity last within => completes_pure within
  | many collection type wrapped =>
      rw [kind] at isField
      cases wrapped with
      | true =>
          have within := onTag.within
          rw [isField] at within
          apply Leads.tag
          apply Leads.quiet_bind (recordCollection_errs _ _ _ _)
          intro _ session
          have completes := itemsComplete tag collection type session within
          exact completes.bind fun holder last within => completes_pure within
      | false =>
          apply (completes_item onTag childrenComplete isField).bind
          rintro ⟨there, value⟩ last within
          exact completes_still within (keepItem_errs _ _ _ _ _ _ _)
  | map encoding =>
      rw [kind] at isField
      exact completes_walkMap onTag frame values isField

private theorem completes_child (frame : Frame) (values : FieldValues) (seen : List String)
    {items : TaggedField → ItemsOf Walk}
    (isChild : course.purposeOf outer tag.name =
      (frame.layout.elementField? tag.name).elim .none fieldPurpose)
    (itemsComplete : ∀ field, course.CompletesItems field (items field) walker.cursor outer) :
    course.Completes
      (course.context.walking.child frame values seen children items
        (course.context.allEntries frame.id))
      walker outer := by
  apply Leads.tag
  rw [onTag.1]
  cases routes : frame.layout.elementField? tag.name with
  | none =>
      rw [routes] at isChild
      exact (completes_unknown onTag isChild).bind fun _ last within => completes_pure within
  | some field =>
      rw [routes] at isChild
      apply Leads.quiet_bind (.lift (takeTag_errs onTag))
      intro seen session
      have standsStill : course.OnTag tag outer (Walker.mk walker.cursor session).cursor := onTag
      exact (completes_walkField standsStill childrenComplete frame values isChild
        (itemsComplete field)).bind fun values last within => completes_pure within

private theorem completes_addItem (id : EntityId) {field : TaggedField} (collection : Collection)
    {type : ItemType} (holder : Value)
    (purposeEq : course.purposeOf outer tag.name =
      if tag.name = field.itemTag then itemPurpose field.declared type else .none) :
    course.Completes (course.context.walking.addItem id field collection type holder children) walker
      outer := by
  apply Leads.tag
  rw [onTag.1]
  split
  · rename_i isItem
    rw [if_pos isItem] at purposeEq
    apply (completes_item onTag childrenComplete purposeEq).bind
    rintro ⟨there, value⟩ last within
    exact completes_still within (addItem_errs _ _ _ _ _ _ _)
  · rename_i other
    rw [if_neg other] at purposeEq
    exact (completes_unknown onTag purposeEq).bind fun _ last within => completes_pure within

end Readers

structure LoopsComplete (course : Course) (steps : Nat) : Prop where
  children : ∀ tag className outer frame values seen walker,
    course.Within (⟨tag, .entity className⟩ :: outer) walker.cursor →
      course.context.schema.layout? className = some frame.layout →
      frame.layout.contentField? = none →
      course.Completes (course.context.walkChildren steps frame values seen) walker outer
  items : ∀ tag outer id field collection type holder walker,
    course.Within (⟨tag, .items field type⟩ :: outer) walker.cursor →
      course.Completes (course.context.walkItems steps id field collection type holder) walker outer

theorem LoopsComplete.completesChildren {steps : Nat} (loops : course.LoopsComplete steps)
    (cursor : Cursor) (outer : List OpenElement) :
    course.CompletesChildren (fun frame values => course.context.walkChildren steps frame values [])
      cursor outer :=
  fun tag className frame values session =>
    loops.children tag className outer frame values [] ⟨cursor, session⟩

theorem LoopsComplete.childrenStep {steps : Nat} (loops : course.LoopsComplete steps) {owner : Tag}
    {className : String} {frame : Frame} (values : FieldValues) (seen : List String)
    (known : course.context.schema.layout? className = some frame.layout)
    (noContent : frame.layout.contentField? = none)
    (within : course.Within (⟨owner, .entity className⟩ :: outer) walker.cursor) :
    course.Completes (course.context.walkChildren (steps + 1) frame values seen) walker outer := by
  rw [Context.walkChildren]
  apply leads_nextTag within
  · intro tag last onTag
    have purposeEq : course.purposeOf (⟨owner, .entity className⟩ :: outer) tag.name =
        (frame.layout.elementField? tag.name).elim .none fieldPurpose := by
      simp only [purposeOf, Purpose.inner, known, Option.elim_some, childPurpose, noContent,
        Option.isSome_none, Bool.false_eq_true, if_false]
    have itemsComplete (field : TaggedField) : course.CompletesItems field
        (fun collection type => course.context.walkItems steps frame.id field collection type
          (.collection collection []))
        last.cursor (⟨owner, .entity className⟩ :: outer) :=
      fun tag collection type session =>
        loops.items tag _ frame.id field collection type _ ⟨last.cursor, session⟩
    apply (completes_child onTag (loops.completesChildren _ _) frame values seen purposeEq
      itemsComplete).bind
    rintro ⟨values, seen⟩ last within
    exact loops.children owner className outer frame values seen last within known noContent
  · intro last within
    exact Leads.of_pure within

theorem LoopsComplete.itemsStep {steps : Nat} (loops : course.LoopsComplete steps) {owner : Tag}
    (id : EntityId) {field : TaggedField} (collection : Collection) {type : ItemType} (holder : Value)
    (within : course.Within (⟨owner, .items field type⟩ :: outer) walker.cursor) :
    course.Completes (course.context.walkItems (steps + 1) id field collection type holder) walker
      outer := by
  rw [Context.walkItems]
  apply leads_nextTag within
  · intro tag last onTag
    apply (completes_addItem onTag (loops.completesChildren _ _) id collection holder rfl).bind
    intro holder last within
    exact loops.items owner outer id field collection type holder last within
  · intro last within
    exact Leads.of_pure within

private theorem loopsComplete (course : Course) (steps : Nat) : course.LoopsComplete steps := by
  induction steps with
  | zero => exact ⟨fun _ _ _ _ _ _ _ _ _ _ => Leads.of_stuck, fun _ _ _ _ _ _ _ _ _ => Leads.of_stuck⟩
  | succ steps ih =>
      exact ⟨fun _ _ _ _ values seen _ within known noContent =>
          ih.childrenStep values seen known noContent within,
        fun _ _ id _ collection _ holder _ within => ih.itemsStep id collection holder within⟩

private theorem completesChildren_allChildren (cursor : Cursor) (outer : List OpenElement) :
    course.CompletesChildren course.context.allChildren cursor outer := by
  intro tag className frame values session within known noContent
  exact Leads.loop fun steps => (loopsComplete course steps).children tag className outer frame values
    [] _ within known noContent

/-! ### Documents -/

def BeforeRoot (course : Course) (cursor : Cursor) : Prop :=
  ∃ passed, course.Passed passed cursor ∧ ∀ token ∈ passed, ¬ IsStartTag token

def OnRoot (course : Course) (tag : Tag) (cursor : Cursor) : Prop :=
  cursor.tag = tag ∧ ∃ front token, course.Passed (front ++ [token]) cursor ∧ IsStart token tag ∧
    ∀ earlier ∈ front, ¬ IsStartTag earlier

private theorem not_isStartTag {token : Token} {kind : TokenKind} (kindEq : token.kind = kind)
    (other : ∀ name attributes, kind ≠ .opening name attributes) : ¬ IsStartTag token := by
  rintro ⟨tag, isStart⟩
  exact other tag.name tag.attributes (kindEq.symm.trans isStart.kind_eq)

private theorem opened_of_no_start {passed : List Token} (none : ∀ token ∈ passed, ¬ IsStartTag token) :
    course.opened passed = [] := by
  induction passed using List.reverseRecOn with
  | nil => rfl
  | append_singleton passed token ih =>
      rw [List.forall_mem_append, List.forall_mem_singleton] at none
      rw [opened_concat, ih none.1]
      cases kind : token.kind with
      | opening name attributes => exact absurd ⟨_, isStart_of_opening kind⟩ none.2
      | text content => rw [openAfter_of_text kind]
      | closing name => rw [openAfter_of_closing kind, List.tail_nil]

theorem OnRoot.onTag {cursor : Cursor} (onRoot : course.OnRoot tag cursor) :
    course.OnTag tag [] cursor := by
  obtain ⟨tagEq, front, token, standing, isStart, isFirst⟩ := onRoot
  exact ⟨tagEq, front, token, standing, isStart, opened_of_no_start isFirst⟩

private theorem leads_walkToRoot {layout : Layout}
    (known : course.context.schema.layout? course.className = some layout) (steps : Nat)
    (before : course.BeforeRoot walker.cursor) :
    course.Leads (walkToRoot layout steps) walker fun _ last => ∃ tag, course.OnRoot tag last := by
  induction steps generalizing walker with
  | zero => exact Leads.of_stuck
  | succ steps ih =>
      obtain ⟨passed, standing, noStart⟩ := before
      apply leads_next standing
      · intro token rest restEq
        have there := standing.onto restEq
        have goesOn (noOpening : ¬ IsStartTag token) :
            course.BeforeRoot (walker.cursor.onto token rest) := by
          refine ⟨_, there, ?_⟩
          rw [List.forall_mem_append, List.forall_mem_singleton]
          exact ⟨noStart, noOpening⟩
        cases kind : token.kind with
        | opening name attributes =>
            simp only [Cursor.markOf, kind]
            exact Leads.of_pure ⟨_, Cursor.tag_onto_of_opening kind _ _, passed, token, there,
              isStart_of_opening kind, noStart⟩
        | closing name =>
            simp only [Cursor.markOf, kind]
            exact ih (goesOn (not_isStartTag kind (by simp)))
        | text content =>
            simp only [Cursor.markOf, kind]
            exact ih (goesOn (not_isStartTag kind (by simp)))
      · intro last atEnd
        obtain ⟨first, again, encoding, endingEq, placeEq⟩ := atEnd.finished
        apply Leads.look
        rw [placeEq]
        exact Leads.of_throw (atEnd.blamed (.noElement known endingEq))

private theorem leads_root {layout : Layout} (onRoot : course.OnRoot tag walker.cursor)
    (known : course.context.schema.layout? course.className = some layout) :
    course.Leads
      (course.context.walking.root course.className layout course.context.allChildren
        (Walk.look (·.current.encoding)))
      walker fun _ _ => True := by
  apply Leads.tag
  rw [onRoot.1]
  split
  · rename_i refused
    simp only [Bool.and_eq_true, decide_eq_true_eq] at refused
    obtain ⟨_, front, token, standing, isStart, isFirst⟩ := onRoot
    exact Leads.of_still_throw ⟨_, standing.tokens_eq,
      .unexpectedRoot isStart isFirst refused.1 known refused.2⟩
  · apply (completes_walkEntity onRoot.onTag (completesChildren_allChildren _ _) true rfl).bind
    intro root last _
    apply Leads.look
    exact Leads.quiet_bind (fun _ => .ok) fun session _ => Leads.of_pure trivial

/-- The read of a document ends with a graph or with blame. -/
private theorem leads_walkDocument (course : Course) (begins : course.Passed [] walker.cursor) :
    course.Leads (course.context.walkDocument course.className) walker fun _ _ => True := by
  rw [Context.walkDocument_eq]
  cases known : course.context.schema.layout? course.className with
  | none => exact Leads.of_still_throw ⟨[], begins.tokens_eq, .unread known⟩
  | some layout =>
      have toRoot : course.Leads (Walk.loop (walkToRoot layout)) walker
          fun _ last => ∃ tag, course.OnRoot tag last :=
        Leads.loop fun steps => leads_walkToRoot known steps ⟨[], begins, nofun⟩
      apply toRoot.bind
      rintro _ last ⟨tag, onRoot⟩
      exact leads_root onRoot known

end Course

/-- A read that fails has passed the tokens up to the one at which that was noticed and none behind it,
and its error points there: at the start tag or the text passed last, at the end of the document, or,
where a text cannot be read, at the start tag of the element whose text it is. -/
theorem errors_point_at_tokens (reader : Reader) (className document : String) (source : Option Source)
    (error : ReadError) (fails : reader.readAs className document source = .error error) :
    let context : Context :=
      ⟨reader.schema, reader.options.strict, if reader.schema.tracksSources then source else none⟩
    let stream := tokenize reader.options.extended document
    ∃ passed last,
      context.walkDocument className
          ⟨Cursor.ofDocument reader.options.extended document context.source, .initial⟩ =
        some (.error error, last) ∧
      stream.tokens = passed ++ last.cursor.rest ∧
      Blames ⟨context, className, stream⟩ passed error := by
  intro context stream
  have walks := readAs_eq_walkDocument reader className document source
  rw [fails] at walks
  obtain ⟨⟨outcome, last⟩, walkEq, rfl⟩ := Option.map_eq_some_iff.1 walks
  let course : Course := ⟨context, className, stream⟩
  have begins : course.Passed []
      (Cursor.ofDocument reader.options.extended document context.source) := ⟨rfl, rfl, rfl⟩
  obtain ⟨passed, tokensEq, blames⟩ := course.leads_walkDocument begins _ last walkEq
  exact ⟨passed, last, walkEq, tokensEq, blames⟩

def tally : Schema.Declarations where
  classes := [
    { name := "Tally", fields := [{ name := "counts", kind := .many .list (.scalar (.integer .int)) true }] }]
  roots := ["Tally"]

/-- A count that is no number is blamed on the start tag of its own element, although the end tag is
what has been passed last. -/
theorem errors_point_at_tokens_of_tally :
    ∃ schema, tally.build = .ok schema ∧
      let reader : Reader := ⟨schema, {}⟩
      let document := "<tally>\n<counts><count>1</count><count> x </count></counts></tally>"
      let error : ReadError := .coercion "counts" (.integer .int) "x" ⟨⟨2, 25⟩, none⟩
      let context : Context := ⟨schema, true, none⟩
      reader.readAs "Tally" document none = .error error ∧
      ∃ passed last,
        context.walkDocument "Tally" ⟨Cursor.ofDocument true document none, .initial⟩ =
          some (.error error, last) ∧
        (tokenize true document).tokens = passed ++ last.cursor.rest ∧
        Blames ⟨context, "Tally", tokenize true document⟩ passed error := by
  have fails : tally.build.toOption.any (fun schema =>
      !schema.tracksSources &&
        failure? ((⟨schema, {}⟩ : Reader).readAs "Tally"
          "<tally>\n<counts><count>1</count><count> x </count></counts></tally>" none) ==
        some (.coercion "counts" (.integer .int) "x" ⟨⟨2, 25⟩, none⟩)) = true := by
    decide +kernel
  obtain ⟨schema, built, fails⟩ := Schema.exists_built fails
  simp only [Bool.and_eq_true, Bool.not_eq_true', beq_iff_eq] at fails
  have failed := failure?_eq_some fails.2
  have points := errors_point_at_tokens ⟨schema, {}⟩ "Tally" _ none _ failed
  simp only [fails.1, Bool.false_eq_true, if_false] at points
  exact ⟨schema, built, failed, points⟩

end Trellis.Reading
