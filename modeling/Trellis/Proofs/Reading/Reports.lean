import Trellis.Proofs.Reading.Failures
import Trellis.Proofs.Reading.Repeats

/-!
What a whole read ends with.

A read of a built schema succeeds only if no child in the document repeats an earlier one, and it
fails either by reporting such a child or with an error that has nothing to do with repeats.  One
induction over contents shows both, and says which errors can be met at all.
-/

namespace Trellis.Reading

open Trellis.Graph (Entity Value)
open Markup (Content Document Ending Tag)
open Schema (Collection Declarations ItemType Layout TaggedField)

/-- The error reports one of the repeats, or has nothing to do with repeats. -/
def Reported (context : Context) (repeats : Tag → Prop) (error : ReadError) : Prop :=
  error.ArisesPlainly context.strict ∨ ∃ child, repeats child ∧
    error = .duplicateElement child.name (context.locate child.position)

/-- The read has come upon all of these repeats if it succeeds, and upon one of them if it reports
one. -/
structure Reports {α : Type} (context : Context) (repeats : Tag → Prop) (read : Read α) : Prop where
  succeeds : ∀ session found, read session = .ok found → ∀ child, ¬ repeats child
  fails : ReadErrsIn (Reported context repeats) read

variable {context : Context}

theorem Reported.weaken {repeats repeats' : Tag → Prop} {error : ReadError}
    (within : ∀ child, repeats child → repeats' child) (reported : Reported context repeats error) :
    Reported context repeats' error := by
  rcases reported with arises | ⟨child, isRepeat, errorEq⟩
  · exact .inl arises
  · exact .inr ⟨child, within child isRepeat, errorEq⟩

namespace Reports

variable {α β : Type} {repeats : Tag → Prop} {read : Read α}

theorem plain (errs : ReadErrsIn (·.ArisesPlainly context.strict) read)
    (none : ∀ child, ¬ repeats child) : Reports context repeats read :=
  ⟨fun _ _ _ => none, fun session => (errs session).weaken fun _ arises => .inl arises⟩

theorem throw {error : ReadError} (arises : error.ArisesPlainly context.strict) :
    Reports context repeats (throw error : Read α) := by
  constructor
  · intro session found impossible
    cases impossible
  · exact .throw (.inl arises)

theorem repeated {child : Tag} (isRepeat : repeats child) :
    Reports context repeats
      (MonadExcept.throw (.duplicateElement child.name (context.locate child.position)) : Read α) := by
  constructor
  · intro session found impossible
    cases impossible
  · exact .throw (.inr ⟨child, isRepeat, rfl⟩)

theorem congr {repeats' : Tag → Prop} (reports : Reports context repeats read)
    (same : ∀ child, repeats child ↔ repeats' child) : Reports context repeats' read := by
  have equal : repeats = repeats' := funext fun child => propext (same child)
  rw [← equal]
  exact reports

theorem bind {first later : Tag → Prop} {next : α → Read β} (reports : Reports context first read)
    (reportsNext : ∀ value, Reports context later (next value))
    (split : ∀ child, repeats child ↔ first child ∨ later child) :
    Reports context repeats (read >>= next) := by
  constructor
  · intro session found runs child isRepeat
    obtain ⟨value, session', readEq, nextEq⟩ := Read.bind_eq_ok runs
    rcases (split child).1 isRepeat with here | there
    · exact reports.succeeds session _ readEq child here
    · exact (reportsNext value).succeeds session' found nextEq child there
  · have fails : ReadErrsIn (Reported context repeats) read := fun session =>
      (reports.fails session).weaken fun _ => Reported.weaken fun child here => (split child).2 (.inl here)
    refine fails.andThen ?_
    intro value session
    exact ((reportsNext value).fails session).weaken
      fun _ => Reported.weaken fun child there => (split child).2 (.inr there)

theorem after {property : α → Prop} {next : α → Read β}
    (errs : ReadErrsIn (·.ArisesPlainly context.strict) read) (ensures : Ensures read property)
    (reports : ∀ value, property value → Reports context repeats (next value)) :
    Reports context repeats (read >>= next) := by
  constructor
  · intro session found runs
    obtain ⟨value, session', readEq, nextEq⟩ := Read.bind_eq_ok runs
    exact (reports value (ensures session value session' readEq)).succeeds session' found nextEq
  · have plain : ReadErrsIn (Reported context repeats) read := fun session =>
      (errs session).weaken fun _ arises => .inl arises
    exact plain.bind ensures fun value holds => (reports value holds).fails

private theorem afterAny {next : α → Read β} (errs : ReadErrsIn (·.ArisesPlainly context.strict) read)
    (reports : ∀ value, Reports context repeats (next value)) :
    Reports context repeats (read >>= next) :=
  after errs (fun _ _ _ _ => trivial) fun value (_ : True) => reports value

theorem andThen {next : α → Read β} (reports : Reports context repeats read)
    (errs : ∀ value, ReadErrsIn (·.ArisesPlainly context.strict) (next value)) :
    Reports context repeats (read >>= next) := by
  have nothing (value : α) : Reports context (fun _ => False) (next value) :=
    plain (errs value) fun _ => id
  exact reports.bind nothing fun child => by rw [or_false]

theorem map {f : α → β} (reports : Reports context repeats read) :
    Reports context repeats (f <$> read) := by
  rw [← bind_pure_comp]
  exact reports.andThen fun _ => .pure

end Reports

/-! ### Entities and their children -/

def ChildrenReport (context : Context) (inside : Content) (children : ChildReader) : Prop :=
  ∀ frame values, IsLayout context.schema frame.layout →
    Reports context (RepeatsWithin context.schema (.entity frame.layout) [] inside)
      (children frame values)

def KnownItem (schema : Schema) (type : ItemType) : Prop :=
  ∀ target, type = .entity target → ∃ resolved, schema.find? target = some resolved

def ItemsReport (context : Context) (itemTag : String) (inside : Content) (items : ItemsReader) :
    Prop :=
  ∀ collection type, KnownItem context.schema type →
    Reports context (RepeatsWithin context.schema (.items itemTag type) [] inside)
      (items collection type)

section Readers

variable {children : ChildReader} {items : ItemsReader} {tag : Tag} {inside : Content}
variable (complete : context.schema.Complete)
include complete

private theorem entity_reports {className : String}
    (found : ∃ resolved, context.schema.find? className = some resolved) (atRoot : Bool)
    (childrenReport : ChildrenReport context inside children) :
    Reports context (RepeatsInside context.schema (entityRole? context.schema className) inside)
      (context.entity className tag inside atRoot children) := by
  apply Reports.after (beginEntity_errs complete found tag atRoot)
    (beginEntity_layout className tag atRoot)
  intro begun layoutEq
  obtain ⟨frame, values⟩ := begun
  simp only
  cases contentEq : frame.layout.contentField? with
  | none =>
      have role : entityRole? context.schema className = some (.entity frame.layout) :=
        entityRole?_eq_some_iff.2 ⟨_, layoutEq, contentEq, rfl⟩
      have reports := childrenReport frame values (isLayout_of_layout? layoutEq)
      refine (reports.congr ?_).andThen fun _ => .pure
      intro child
      simp only [RepeatsInside, role, Option.some.injEq, exists_eq_left']
  | some field =>
      have role : entityRole? context.schema className = none := by
        simp only [entityRole?, layoutEq, contentEq]
        rfl
      have errs : ReadErrsIn (·.ArisesPlainly context.strict)
          (context.readContentField frame values field tag inside) :=
        readContentField_errs frame values field tag inside
      refine .plain (errs.andThen fun _ => .pure) ?_
      rw [role]
      exact fun _ => RepeatsInside.none

private theorem item_reports (field : TaggedField) {type : ItemType}
    (known : KnownItem context.schema type)
    (childrenReport : ChildrenReport context inside children) :
    Reports context (RepeatsInside context.schema (itemRole? context.schema type) inside)
      (context.item field type tag inside children) := by
  cases type with
  | entity className => exact (entity_reports complete (known className rfl) false childrenReport).map
  | scalar type =>
      exact .plain (.lift (scalar_errs field.declared type tag inside)) fun _ => RepeatsInside.none

private theorem field_reports (frame : Frame) (known : IsLayout context.schema frame.layout)
    (values : FieldValues) {field : TaggedField} (member : field ∈ frame.layout.fields)
    (childrenReport : ChildrenReport context inside children)
    (itemsReport : ItemsReport context field.itemTag inside items) :
    Reports context (RepeatsInside context.schema (fieldRole? context.schema field) inside)
      (context.field frame values field tag inside children items) := by
  have targetFound : ∀ target, field.declared.Holds target →
      ∃ resolved, context.schema.find? target = some resolved := by
    obtain ⟨resolved, isResolved, layoutEq⟩ := known
    rw [← layoutEq] at member
    exact complete.targets resolved isResolved field member
  unfold Context.field fieldRole?
  cases kind : field.declared.kind with
  | scalar type =>
      have errs : ErrsIn (·.ArisesPlainly context.strict)
          (context.scalar field.declared type tag inside) :=
        scalar_errs field.declared type tag inside
      exact .plain ((ReadErrsIn.lift errs).andThen fun _ => ReadErrsIn.modify.andThen fun _ => .pure)
        fun _ => RepeatsInside.none
  | one target =>
      have found := targetFound target (.one kind)
      exact (entity_reports complete found false childrenReport).andThen fun _ => .pure
  | many collection type wrapped =>
      have knownItem : KnownItem context.schema type := by
        rintro target rfl
        exact targetFound target (.many kind)
      cases wrapped with
      | true =>
          apply Reports.afterAny (recordCollection_errs frame.id field.name type _)
          intro _
          refine ((itemsReport collection type knownItem).congr ?_).andThen fun _ => .pure
          intro child
          simp only [RepeatsInside, Option.some.injEq, exists_eq_left']
      | false =>
          apply (item_reports complete field knownItem childrenReport).andThen
          intro value
          exact keepItem_errs frame values field collection type tag value
  | map encoding =>
      exact .plain (readMap_errs frame values field encoding tag inside)
        fun _ => RepeatsInside.not_in_map (.inr ⟨_, _, rfl⟩)

end Readers

structure ContentReports (context : Context) (content : Content) : Prop where
  children : ∀ frame values seen, IsLayout context.schema frame.layout →
    Reports context (RepeatsWithin context.schema (.entity frame.layout) seen content)
      (context.readChildren frame values seen content)
  items : ∀ id field collection type holder, KnownItem context.schema type →
    Reports context (RepeatsWithin context.schema (.items field.itemTag type) [] content)
      (context.readItems id field collection type holder content)

section LoopSteps

variable (complete : context.schema.Complete) {tag : Tag} {inside rest : Content}
variable (ihInside : ContentReports context inside) (ihRest : ContentReports context rest)
include complete ihInside ihRest

theorem ContentReports.childrenStep (frame : Frame) (values : FieldValues) (seen : List String)
    (known : IsLayout context.schema frame.layout) :
    Reports context
      (RepeatsWithin context.schema (.entity frame.layout) seen (.element tag inside rest))
      (context.readChildren frame values seen (.element tag inside rest)) := by
  have unknown : ReadErrsIn (·.ArisesPlainly context.strict)
      (liftM (context.passElement tag inside)) := .lift (passElement_errs tag inside)
  have childrenReport : ChildrenReport context inside (context.childrenIn inside) :=
    fun frame values known => ihInside.children frame values [] known
  simp only [Context.readChildren]
  cases routes : frame.layout.elementField? tag.name with
  | none =>
      have noRole : (Role.entity frame.layout).child? context.schema tag.name = none := by
        simp only [Role.child?, routes, Option.bind_none]
      have sameTags : tagsAfter frame.layout seen tag.name = seen := by
        simp only [tagsAfter, routes]
      refine .afterAny unknown fun _ => (ihRest.children frame values seen known).congr ?_
      intro child
      rw [RepeatsWithin.entity_iff, noRole, sameTags]
      simp [routes, RepeatsInside.none]
  | some field =>
      have member := Schema.Layout.mem_fields_of_elementField? routes
      have itemsReport : ItemsReport context field.itemTag inside
          (context.itemsIn frame.id field inside) :=
        fun collection type known => ihInside.items frame.id field collection type _ known
      simp only
      by_cases repeated : field.declared.isUnwrapped = false ∧ field.tag ∈ seen
      · rw [takeTag_of_taken repeated.1 repeated.2]
        have isRepeat : RepeatsWithin context.schema (.entity frame.layout) seen
            (.element tag inside rest) tag :=
          RepeatsWithin.entity_iff.2 (.inl ⟨rfl, field, routes, repeated.1, repeated.2⟩)
        exact Reports.repeated isRepeat
      · rw [takeTag_of_free routes repeated, Read.lift_ok_bind]
        have reports : Reports context
            (RepeatsInside context.schema (fieldRole? context.schema field) inside)
            (context.readField frame values field tag inside) :=
          field_reports complete frame known values member childrenReport itemsReport
        refine Reports.bind reports (fun values => ihRest.children frame values _ known) ?_
        intro child
        have role : (Role.entity frame.layout).child? context.schema tag.name =
            fieldRole? context.schema field := by
          simp only [Role.child?, routes, Option.bind_some]
        have notHere : ¬ (child = tag ∧ ∃ other, frame.layout.elementField? tag.name = some other ∧
            other.declared.isUnwrapped = false ∧ other.tag ∈ seen) := by
          rintro ⟨_, other, routes', here⟩
          rw [routes] at routes'
          cases routes'
          exact repeated here
        rw [RepeatsWithin.entity_iff, role]
        exact or_iff_right notHere

theorem ContentReports.itemsStep (id : EntityId) (field : TaggedField) (collection : Collection)
    (type : ItemType) (holder : Value) (known : KnownItem context.schema type) :
    Reports context
      (RepeatsWithin context.schema (.items field.itemTag type) [] (.element tag inside rest))
      (context.readItems id field collection type holder (.element tag inside rest)) := by
  have unknown : ReadErrsIn (·.ArisesPlainly context.strict)
      (liftM (context.passElement tag inside)) := .lift (passElement_errs tag inside)
  have childrenReport : ChildrenReport context inside (context.childrenIn inside) :=
    fun frame values known => ihInside.children frame values [] known
  simp only [Context.readItems]
  split
  · rename_i isItem
    have role : (Role.items field.itemTag type).child? context.schema tag.name =
        itemRole? context.schema type := by
      simp only [Role.child?, isItem, if_true]
    have goesOn (value : Value) : Reports context
        (RepeatsWithin context.schema (.items field.itemTag type) [] rest) (do
          let holder ← context.addItem id field collection type tag holder value
          context.readItems id field collection type holder rest) := by
      apply Reports.afterAny (addItem_errs id field collection type tag holder value)
      intro holder
      exact ihRest.items id field collection type holder known
    refine Reports.bind (item_reports complete field known childrenReport) goesOn ?_
    intro child
    rw [RepeatsWithin.items_iff, role]
  · rename_i notItem
    have noRole : (Role.items field.itemTag type).child? context.schema tag.name = none := by
      simp only [Role.child?, notItem, if_false]
    refine .afterAny unknown fun _ =>
      (ihRest.items id field collection type holder known).congr ?_
    intro child
    rw [RepeatsWithin.items_iff, noRole]
    exact (or_iff_right RepeatsInside.none).symm

end LoopSteps

private theorem contentReports (complete : context.schema.Complete) (content : Content) :
    ContentReports context content := by
  -- Both loops together: what is in a child is read by the one or the other.
  induction content with
  | closed encoding =>
      exact ⟨fun _ _ _ _ => .plain .pure fun _ => RepeatsWithin.closed,
        fun _ _ _ _ _ _ => .plain .pure fun _ => RepeatsWithin.closed⟩
  | broken ending =>
      exact ⟨fun _ _ _ _ => .throw (breakError_arises ending),
        fun _ _ _ _ _ _ => .throw (breakError_arises ending)⟩
  | text position text rest ih =>
      have passed : ReadErrsIn (·.ArisesPlainly context.strict)
          (liftM (context.passText position text)) := .lift (passText_errs position text)
      constructor
      · intro frame values seen known
        have reports := ih.children frame values seen known
        exact .afterAny passed fun _ => reports.congr fun _ => RepeatsWithin.text_iff.symm
      · intro id field collection type holder known
        have reports := ih.items id field collection type holder known
        exact .afterAny passed fun _ => reports.congr fun _ => RepeatsWithin.text_iff.symm
  | element tag inside rest ihInside ihRest =>
      exact ⟨ihInside.childrenStep complete ihRest, ihInside.itemsStep complete ihRest⟩

/-! ### Documents -/

/-- An element of the document is read as an entity with the layout, child by child, and this is its
content. -/
def StandsIn (schema : Schema) (className : String) (document : Document) (layout : Layout)
    (content : Content) : Prop :=
  ∃ root inside role, document = .rooted root inside ∧ entityRole? schema className = some role ∧
    (role = .entity layout ∧ inside = content ∨ Holds schema role inside (.entity layout) content)

def DocumentRepeats (schema : Schema) (className : String) (document : Document) (child : Tag) :
    Prop :=
  ∃ layout content, StandsIn schema className document layout content ∧ Repeats layout content child

private theorem documentRepeats_iff {schema : Schema} {className : String} {root : Tag}
    {inside : Content}
    {child : Tag} :
    DocumentRepeats schema className (.rooted root inside) child ↔
      RepeatsInside schema (entityRole? schema className) inside child := by
  rw [repeatsInside_iff]
  constructor
  · rintro ⟨layout, content, ⟨_, _, role, same, known, stands⟩, repeats⟩
    cases same
    exact ⟨layout, content, repeats, role, known, stands⟩
  · rintro ⟨layout, content, repeats, role, known, stands⟩
    exact ⟨layout, content, ⟨root, inside, role, rfl, known, stands⟩, repeats⟩

private theorem readDocument_reports (complete : context.schema.Complete) {className : String}
    (found : ∃ resolved, context.schema.find? className = some resolved) (document : Document) :
    let outcome := context.readDocument className document
    let repeats := DocumentRepeats context.schema className document
    (∀ graph, outcome = .ok graph → ∀ child, ¬ repeats child) ∧
      ErrsIn (Reported context repeats) outcome := by
  have layoutEq : ∃ layout, context.schema.layout? className = some layout := by
    obtain ⟨resolved, foundEq⟩ := found
    exact ⟨resolved.layout, by rw [Schema.layout?, foundEq]; rfl⟩
  obtain ⟨layout, layoutEq⟩ := layoutEq
  intro outcome repeats
  have outcomeEq : outcome = context.readDocument className document := rfl
  unfold Context.readDocument at outcomeEq
  simp only [layoutEq] at outcomeEq
  cases document with
  | empty ending =>
      have plain : ∃ error, outcome = .error error ∧ error.ArisesPlainly context.strict := by
        cases ending with
        | failed error => exact ⟨_, outcomeEq, trivial⟩
        | finished first again encoding => exact ⟨_, outcomeEq, trivial⟩
      obtain ⟨error, failed, arises⟩ := plain
      rw [failed]
      refine ⟨?_, .error (.inl arises)⟩
      intro graph impossible
      cases impossible
  | rooted root inside =>
      simp only at outcomeEq
      split at outcomeEq
      · rename_i refused
        simp only [Bool.and_eq_true] at refused
        rw [outcomeEq]
        refine ⟨?_, .error (.inl refused.1)⟩
        intro graph impossible
        cases impossible
      · have childrenReport : ChildrenReport context inside (context.childrenIn inside) :=
          fun frame values known =>
            (contentReports complete inside).children frame values [] known
        have reports : Reports context repeats (context.readEntity className root inside true) :=
          (entity_reports complete found true childrenReport).congr
            fun child => documentRepeats_iff.symm
        rw [outcomeEq]
        constructor
        · intro graph succeeds
          cases readEq : context.readEntity className root inside true .initial with
          | error error =>
              change Except.bind (context.readEntity className root inside true .initial) _ = _
                at succeeds
              rw [readEq] at succeeds
              cases succeeds
          | ok found => exact reports.succeeds .initial found readEq
        · exact ErrsIn.bind (reports.fails .initial) fun _ _ => .ok

private theorem readAs_reports (reader : Reader) (complete : reader.schema.Complete) (document : String)
    (source : Option Source) :
    let context : Context := ⟨reader.schema, reader.options.strict,
      if reader.schema.tracksSources then source else none⟩
    let outcome := reader.readAs reader.schema.root document source
    let repeats := DocumentRepeats reader.schema reader.schema.root
      (.parse reader.options.extended document)
    (∀ graph, outcome = .ok graph → ∀ child, ¬ repeats child) ∧
      ErrsIn (Reported context repeats) outcome := by
  intro context
  have completeHere : context.schema.Complete := complete
  exact readDocument_reports completeHere complete.root (.parse reader.options.extended document)

/-- Reading a text against a schema that was built, with or without a source, fails only with the
errors that arise then. -/
theorem read_errors_arise {declarations : Declarations} {schema : Schema}
    (built : declarations.build = .ok schema) (options : Options) (document : String) :
    let reader : Reader := ⟨schema, options⟩
    (∀ error, reader.read document = .error error → error.Arises options.strict) ∧
      (∀ source error, reader.readFrom document source = .error error →
        error.Arises options.strict) ∧ HasScalars schema := by
  intro reader
  have complete := Schema.complete_of_build built
  have arises (source : Option Source) (error : ReadError)
      (failed : reader.readAs schema.root document source = .error error) :
      error.Arises options.strict := by
    rcases (readAs_reports reader complete document source).2 error failed with
      plain | ⟨child, _, errorEq⟩
    · exact .inl plain
    · exact .inr ⟨_, _, errorEq⟩
  exact ⟨arises none, fun source => arises (some source), hasScalars_of_complete complete⟩

def failure? {α : Type} : Except ReadError α → Option ReadError
  | .error error => some error
  | .ok _ => none

theorem failure?_eq_some {α : Type} {outcome : Except ReadError α} {error : ReadError}
    (failed : failure? outcome = some error) : outcome = .error error := by
  cases outcome with
  | error other =>
      cases failed
      rfl
  | ok value => cases failed

/-- A text on the shelf is refused by a strict read, and an open shelf by a lenient one. -/
theorem shelf_read_errors_arise :
    ∃ schema, Schema.shelf.build = .ok schema ∧
      let strict : Reader := ⟨schema, { strict := true }⟩
      let lenient : Reader := ⟨schema, { strict := false }⟩
      (∃ error, strict.read "<shelf>x</shelf>" = .error error ∧ error.Arises true) ∧
        ∃ error, lenient.read "<shelf>" = .error error ∧ error.Arises false := by
  have fails : Schema.shelf.build.toOption.any (fun schema =>
      failure? ((⟨schema, { strict := true }⟩ : Reader).read "<shelf>x</shelf>") ==
          some (.unexpectedText ⟨⟨1, 8⟩, none⟩) &&
        failure? ((⟨schema, { strict := false }⟩ : Reader).read "<shelf>") ==
          some (.unexpectedEnd ⟨⟨1, 8⟩, none⟩)) = true := by
    decide +kernel
  obtain ⟨schema, built, fails⟩ := Schema.exists_built fails
  simp only [Bool.and_eq_true, beq_iff_eq] at fails
  have refused := failure?_eq_some fails.1
  have failed := failure?_eq_some fails.2
  refine ⟨schema, built, ⟨_, refused, ?_⟩, _, failed, ?_⟩
  · exact (read_errors_arise built { strict := true } "<shelf>x</shelf>").1 _ refused
  · exact (read_errors_arise built { strict := false } "<shelf>").1 _ failed

/-! ### Repeats -/

/-- Two children of one entity repeat if they belong to one field that is no unwrapped list or set. -/
theorem Repeats.of_two {layout : Layout} {before middle : List Part} {first second : Tag}
    {inside inside' rest : Content} {field : TaggedField}
    (routes : Routes layout first.name field) (routes' : Routes layout second.name field)
    (single : field.declared.isUnwrapped = false) :
    Repeats layout (ahead before (.element first inside (ahead middle (.element second inside' rest))))
      second := by
  have taken : Taken layout field.tag (before ++ .element first inside :: middle) :=
    ⟨first, inside, field, by simp, routes, single, rfl⟩
  refine ⟨before ++ .element first inside :: middle, inside', rest, field, ?_, routes', single, taken⟩
  simp only [ahead, List.foldr_append, List.foldr_cons, Part.before]

/-- A child is reported exactly if it repeats an earlier one.  Layouts list inherited fields first;
children go to the first field that claims them; behind children that can be read, a child that
repeats one of them is an error, and the field of any other child is read; and a whole read reports
nothing but repeats, and succeeds only if there are none. -/
theorem duplicates_exact {declarations : Declarations} {schema : Schema}
    (built : declarations.build = .ok schema) (options : Options) :
    declarations.Describes schema ∧
    (∀ (layout : Layout) name field,
      layout.elementField? name = some field ↔ Routes layout name field) ∧
    (∀ (context : Context) frame values session encoding before found,
      context.childrenIn (ahead before (.closed encoding)) frame values session = .ok found →
      ∀ child field, Routes frame.layout child.name field → ∀ inside rest,
        let outcome :=
          context.childrenIn (ahead before (.element child inside rest)) frame values session
        let repeated := field.declared.isUnwrapped = false ∧ Taken frame.layout field.tag before
        (repeated →
          outcome = .error (.duplicateElement child.name (context.locate child.position))) ∧
        (¬ repeated → ∃ taken, outcome = (do
          let values ← context.readField frame found.1 field child inside
          context.readChildren frame values taken rest : Read FieldValues) found.2)) ∧
    ∀ document source,
      let reader : Reader := ⟨schema, options⟩
      let outcome := reader.readAs schema.root document source
      let parsed := Document.parse options.extended document
      (∀ name location, outcome = .error (.duplicateElement name location) →
        ∃ child, DocumentRepeats schema schema.root parsed child ∧ name = child.name ∧
          location = ⟨child.position, if schema.tracksSources then source else none⟩) ∧
      ∀ graph, outcome = .ok graph →
        (∀ child, ¬ DocumentRepeats schema schema.root parsed child) ∧
        ∀ layout before first inside middle second inside' rest field,
          StandsIn schema schema.root parsed layout
            (ahead before (.element first inside (ahead middle (.element second inside' rest)))) →
          Routes layout first.name field → Routes layout second.name field →
            field.declared.isUnwrapped = true := by
  have describes := Schema.describes_of_builds (Schema.build_eq_ok_iff.1 built)
  refine ⟨describes, fun _ _ _ => elementField?_eq_some_iff, ?_, ?_⟩
  · intro context frame values session encoding before found succeeds child field routes inside rest
    exact readChildren_child succeeds routes inside rest
  · intro document source reader outcome parsed
    have complete := Schema.complete_of_build built
    obtain ⟨succeeds, fails⟩ := readAs_reports reader complete document source
    constructor
    · intro name location failed
      rcases fails _ failed with plain | ⟨child, repeats, same⟩
      · exact plain.elim
      · cases same
        exact ⟨child, repeats, rfl, rfl⟩
    · intro graph read
      refine ⟨succeeds graph read, ?_⟩
      intro layout before first inside middle second inside' rest field stands routes routes'
      by_contra wrapped
      have single : field.declared.isUnwrapped = false := Bool.not_eq_true _ ▸ wrapped
      exact succeeds graph read second ⟨layout, _, stands, .of_two routes routes' single⟩

def twofold : Declarations where
  classes := [
    { name := "Name"
      fields := [
        { name := "given", kind := .scalar .text, otherTag := some "vorname" },
        { name := "marks", kind := .many .list (.scalar .text) false },
        { name := "inner", kind := .one "Name" }] }]
  roots := ["Name"]

/-- A name given in both languages is reported in both modes; marks given twice and a name inside the
other are not. -/
theorem twofold_duplicates_exact :
    let document := "<name><given>A</given><mark>m</mark><mark>n</mark>" ++
      "<inner><given>B</given></inner><vorname>A</vorname></name>"
    ∃ schema, twofold.build = .ok schema ∧ ∀ options ∈ [({ strict := true } : Options), { strict := false }],
      let outcome := (⟨schema, options⟩ : Reader).readAs schema.root document none
      outcome = .error (.duplicateElement "vorname" ⟨⟨1, 82⟩, none⟩) ∧
        ∃ child, DocumentRepeats schema schema.root (.parse options.extended document) child ∧
          child.name = "vorname" := by
  intro document
  have fails : twofold.build.toOption.any (fun schema =>
      [({ strict := true } : Options), { strict := false }].all fun options =>
        failure? ((⟨schema, options⟩ : Reader).readAs schema.root document none) ==
          some (.duplicateElement "vorname" ⟨⟨1, 82⟩, none⟩)) = true := by
    decide +kernel
  obtain ⟨schema, built, fails⟩ := Schema.exists_built fails
  refine ⟨schema, built, ?_⟩
  intro options member outcome
  have failed := failure?_eq_some (beq_iff_eq.1 (List.all_eq_true.1 fails options member))
  obtain ⟨_, _, _, documents⟩ := duplicates_exact built options
  obtain ⟨child, repeats, same, _⟩ := (documents document none).1 _ _ failed
  exact ⟨failed, child, repeats, same.symm⟩

end Trellis.Reading
