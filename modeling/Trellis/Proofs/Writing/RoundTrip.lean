import Trellis.Proofs.Writing.Entities
import Trellis.Reading.Reader

/-!
The round trip from entities to documents and back.

The document that is written for an entity is read as an equal entity.  The element fields are read
in the order in which they are written, the entities in them by induction, and around them stands
the document that the scanner takes apart.
-/

namespace Trellis.Reading

open Trellis.Graph (Entity SameBinding Steps Value writeAttributes)
open Markup (Body Content Document Tag isName)
open Schema (Declarations Field Layout ResolvedClass TaggedField placed_of_build)

variable {context : Context} {entity : Entity} {values : FieldValues} {resolved : ResolvedClass}

/-! ### Element fields -/

/-- The element fields that the entity binds are written in a row, and each is read in front of the
next. -/
inductive FieldRow (context : Context) (entity : Entity) : List TaggedField → Body → Prop
  | nil : FieldRow context entity [] .stop
  | unbound {field : TaggedField} {others : List TaggedField} {body : Body}
      (absent : entity.get? field.name = none) (row : FieldRow context entity others body) :
      FieldRow context entity (field :: others) body
  | bound {field : TaggedField} {others : List TaggedField} {rest body : Body} {value : Value}
      (present : entity.get? field.name = some value) (goesOn : GoesOn context field value rest body)
      (row : FieldRow context entity others rest) : FieldRow context entity (field :: others) body

def writeElements (schema : Schema) (entity : Entity) (fields : List TaggedField) : Option Body :=
  fields.foldrM (fun field inside => Value.writeBound schema field inside entity.fields) .stop

private theorem writeElements_row (context : Context) {fields : List TaggedField}
    (each : ∀ field ∈ fields, ∀ value, entity.get? field.name = some value →
      FieldReads context field value) :
    ∃ body, writeElements context.schema entity fields = some body ∧ body.WellFormed ∧
      FieldRow context entity fields body := by
  induction fields with
  | nil => exact ⟨.stop, rfl, trivial, .nil⟩
  | cons field others ih =>
      obtain ⟨first, eachOther⟩ := List.forall_mem_cons.1 each
      obtain ⟨rest, writesOthers, restFormed, row⟩ := ih eachOther
      unfold writeElements at writesOthers ⊢
      rw [List.foldrM_cons, writesOthers]
      change ∃ body, Value.writeBound context.schema field rest entity.fields = some body ∧ _
      cases bound : entity.get? field.name with
      | none => exact ⟨rest, Value.writeBound_of_unbound bound, restFormed, .unbound bound row⟩
      | some value =>
          obtain ⟨body, writes, formed, goesOn⟩ := first value bound rest
          refine ⟨body, ?_, formed restFormed, .bound bound goesOn row⟩
          rw [Value.writeBound_of_get? bound]
          exact writes

/-- What has been set agrees with the entity on all names but those of fields that are left. -/
structure Agrees (entity : Entity) (left : List TaggedField) (seen : List String)
    (values : FieldValues) :
    Prop where
  done : ∀ name, (∀ field ∈ left, field.name ≠ name) →
    SameBinding (values.get? name) (entity.get? name)
  unset : ∀ field ∈ left, entity.get? field.name = none ∨ field.declared.isUnwrapped = true →
    values.get? field.name = none
  untaken : ∀ field ∈ left, field.declared.isUnwrapped = false → field.tag ∉ seen

structure Apart (left : List TaggedField) : Prop where
  names : (left.map (·.name)).Nodup
  elements : left.Pairwise fun field other => ∀ name ∈ field.matchingNames, name ∉ other.matchingNames

theorem Apart.tail {field : TaggedField} {others : List TaggedField}
    (apart : Apart (field :: others)) :
    Apart others where
  names := (List.nodup_cons.1 apart.names).2
  elements := (List.pairwise_cons.1 apart.elements).2

theorem Apart.name_ne {field other : TaggedField} {others : List TaggedField}
    (apart : Apart (field :: others)) (member : other ∈ others) : other.name ≠ field.name := by
  intro same
  apply (List.nodup_cons.1 apart.names).1
  exact List.mem_map.2 ⟨other, member, same⟩

theorem Agrees.skip {field : TaggedField} {others : List TaggedField} {seen : List String}
    (agrees : Agrees entity (field :: others) seen values) (absent : entity.get? field.name = none) :
    Agrees entity others seen values where
  done := by
    intro name different
    by_cases here : field.name = name
    · rw [← here, absent, agrees.unset field List.mem_cons_self (.inl absent)]
      trivial
    · apply agrees.done
      intro other member
      rcases List.mem_cons.1 member with rfl | later
      · exact here
      · exact different other later
  unset := by
    intro other member
    exact agrees.unset other (List.mem_cons_of_mem _ member)
  untaken := by
    intro other member
    exact agrees.untaken other (List.mem_cons_of_mem _ member)

theorem Agrees.set {field : TaggedField} {others : List TaggedField} {seen seen' : List String}
    {values' : FieldValues} {value : Value} (agrees : Agrees entity (field :: others) seen values)
    (apart : Apart (field :: others)) (present : entity.get? field.name = some value)
    (sets : Sets field value values values') (takes : Takes field seen seen') :
    Agrees entity others seen' values' where
  done := by
    intro name different
    by_cases here : field.name = name
    · obtain ⟨read, found, same⟩ := sets.here
      rw [← here, found, present]
      exact same
    · rw [sets.others name (Ne.symm here)]
      apply agrees.done
      intro other member
      rcases List.mem_cons.1 member with rfl | later
      · exact here
      · exact different other later
  unset := by
    intro other member absent
    rw [sets.others other.name (apart.name_ne member)]
    exact agrees.unset other (List.mem_cons_of_mem _ member) absent
  untaken := by
    intro other member whole taken
    rcases takes other.tag taken with before | ⟨same, fieldWhole⟩
    · exact agrees.untaken other (List.mem_cons_of_mem _ member) whole before
    · have different := (List.pairwise_cons.1 apart.elements).1 other member field.tag
        (TaggedField.tag_mem_matchingNames fieldWhole)
      apply different
      rw [← same]
      exact TaggedField.tag_mem_matchingNames whole

private theorem readChildren_fields {frame : Frame} {left : List TaggedField} {body : Body}
    (row : FieldRow context entity left body) (routes : ∀ field ∈ left, RoutesTo frame field)
    (apart : Apart left) {seen : List String} (agrees : Agrees entity left seen values)
    {content : Content} (showsBody : content.Shows body) :
    Yields (context.readChildren frame values seen content) fun values =>
      ∀ name, SameBinding (values.get? name) (entity.get? name) := by
  induction row generalizing values seen content with
  | nil =>
      obtain ⟨encoding, rfl⟩ := showsBody.stop_inv
      apply Yields.pure
      intro name
      apply agrees.done
      intro field member
      cases member
  | unbound absent row ih =>
      obtain ⟨_, routesOthers⟩ := List.forall_mem_cons.1 routes
      exact ih routesOthers apart.tail (agrees.skip absent) showsBody
  | bound present goesOn row ih =>
      rename_i field others rest body value
      obtain ⟨routesHere, routesOthers⟩ := List.forall_mem_cons.1 routes
      apply goesOn frame values seen content _ routesHere showsBody
      · intro unwrapped
        exact agrees.unset field List.mem_cons_self (.inr unwrapped)
      · exact agrees.untaken field List.mem_cons_self
      · intro values' seen' after showsRest sets takes
        exact ih routesOthers apart.tail (agrees.set apart present sets takes) showsRest

/-! ### Routes -/

private theorem find?_goesBy {fields : List TaggedField}
    (apart : fields.Pairwise fun field other => ∀ name ∈ field.matchingNames, name ∉ other.matchingNames)
    {field : TaggedField} (member : field ∈ fields) {name : String}
    (matching : name ∈ field.matchingNames) :
    fields.find? (·.goesBy name) = some field := by
  induction fields with
  | nil => cases member
  | cons first others ih =>
      obtain ⟨firstApart, othersApart⟩ := List.pairwise_cons.1 apart
      rcases List.mem_cons.1 member with rfl | later
      · exact List.find?_cons_of_pos (TaggedField.goesBy_iff.2 matching)
      · have notFirst : first.goesBy name = false := by
          rw [Bool.eq_false_iff]
          intro goesBy
          exact firstApart field later name (TaggedField.goesBy_iff.1 goesBy) matching
        rw [List.find?_cons, notFirst]
        exact ih othersApart later

private theorem routesTo {frame : Frame} (writable : frame.layout.Writable) {field : TaggedField}
    (member : field ∈ frame.layout.elementFields) : RoutesTo frame field := by
  intro name matching
  exact find?_goesBy writable.elementNames member matching

private theorem apart_elementFields {layout : Layout} (writable : layout.Writable) :
    Apart layout.elementFields where
  names := writable.names.sublist (List.filter_sublist.map _)
  elements := writable.elementNames

/-! ### Entities -/

private theorem write_of_contentField {schema : Schema} {layout : Layout} {field : TaggedField}
    {tag text : String} {attributes : List (String × String)} {rest : Body}
    (layoutEq : schema.layout? entity.className = some layout)
    (attributesEq : writeAttributes entity.fields layout.attributeFields = some attributes)
    (isContent : layout.contentField? = some field)
    (textEq : Graph.contentText? entity.fields field = some text) :
    entity.write schema tag rest = some (.element tag attributes text .stop rest) := by
  obtain ⟨id, className, fields⟩ := entity
  change schema.layout? className = some layout at layoutEq
  change writeAttributes fields layout.attributeFields = some attributes at attributesEq
  change Graph.contentText? fields field = some text at textEq
  simp only [Entity.write, layoutEq, attributesEq, isContent, textEq, Option.bind_eq_bind,
    Option.bind_some]
  rfl

private theorem write_of_elementFields {schema : Schema} {layout : Layout} {tag : String}
    {attributes : List (String × String)} {body rest : Body}
    (layoutEq : schema.layout? entity.className = some layout)
    (attributesEq : writeAttributes entity.fields layout.attributeFields = some attributes)
    (noContent : layout.contentField? = none)
    (bodyEq : writeElements schema entity layout.elementFields = some body) :
    entity.write schema tag rest = some (.element tag attributes "" body rest) := by
  obtain ⟨id, className, fields⟩ := entity
  change schema.layout? className = some layout at layoutEq
  change writeAttributes fields layout.attributeFields = some attributes at attributesEq
  unfold writeElements at bodyEq
  change layout.elementFields.foldrM (fun field inside => Value.writeBound schema field inside fields)
    .stop = some body at bodyEq
  simp only [Entity.write, layoutEq, attributesEq, noContent, bodyEq, Option.bind_eq_bind,
    Option.bind_some]
  rfl

def Context.readInside (context : Context) (frame : Frame) (values : FieldValues) (tag : Tag)
    (inside : Content) : Read FieldValues :=
  match frame.layout.contentField? with
  | some field => context.readContentField frame values field tag inside
  | none => context.childrenIn inside frame values

private theorem readEntity_eq (className : String) (tag : Tag) (inside : Content) (atRoot : Bool) :
    context.readEntity className tag inside atRoot = (do
      let begun ← context.beginEntity className tag atRoot
      let values ← context.readInside begun.1 begun.2 tag inside
      return .mk begun.1.id className values) := by
  unfold Context.readEntity Context.entity Context.readInside
  apply bind_congr
  intro begun
  obtain ⟨frame, values⟩ := begun
  simp only
  cases frame.layout.contentField? <;> rfl

theorem Ready.layout_eq {schema : Schema} (ready : Ready schema resolved entity) :
    schema.layout? entity.className = some resolved.layout := by
  rw [Schema.layout?, ready.isInstance.declared]
  rfl

theorem Started.agrees (ready : Ready context.schema resolved entity)
    (writable : resolved.layout.Writable) (placed : resolved.layout.Placed)
    (started : Started resolved.layout entity values)
    (noContent : resolved.layout.contentField? = none) :
    Agrees entity resolved.layout.elementFields [] values where
  done := by
    intro name noElement
    apply started.sameBinding ready placed noElement
    intro field isContent
    rw [noContent] at isContent
    cases isContent
  unset := by
    intro field member unsetField
    rcases unsetField with unbound | unwrapped
    · exact started.scalars.eq_none unbound
    · cases found : values.get? field.name with
      | none => rfl
      | some value =>
          have isSet : values.get? field.name ≠ none := by
            rw [found]
            exact Option.some_ne_none value
          obtain ⟨_, other, otherMember, nameEq, isScalar⟩ := started.scalars field.name isSet
          have isField := mem_fields_of_elementFields member
          rw [writable.names.eq_of_name_eq otherMember isField nameEq] at isScalar
          obtain ⟨collection, type, kind⟩ := Field.kind_of_isUnwrapped unwrapped
          apply absurd _ isScalar
          rw [Field.scalarType?, kind]
  untaken := by
    intro field _ _ taken
    cases taken

private theorem fieldReady (ready : Ready context.schema resolved entity)
    (writable : resolved.layout.Writable)
    (inside : ∀ name value, (name, value) ∈ entity.fields → ∀ inner, value.Holds inner →
      EntityReads context inner)
    {field : TaggedField} (member : field ∈ resolved.layout.elementFields) {value : Value}
    (bound : entity.get? field.name = some value) : FieldReady context field value where
  fits := ready.isInstance.fits field (mem_fields_of_elementFields member) value bound
  exact := writable.exact field (mem_fields_of_elementFields member)
  trimmed := by
    intro trims
    exact ready.writable.trimmed field (mem_fields_of_elementFields member) trims value bound
  tags := writable.elementTags field member
  keys := by
    intro kind entries valueEq
    rw [valueEq] at bound
    exact ready.writable.keys field member kind entries bound
  filled := by
    intro unwrapped kind empty
    rw [empty] at bound
    exact ready.writable.filled field member unwrapped kind bound
  inside := inside field.name value (OrderedMap.mem_of_get? bound)

private theorem attributes_written {schema : Schema} (ready : Ready schema resolved entity)
    (writable : resolved.layout.Writable) (placed : resolved.layout.Placed) :
    ∃ attributes, writeAttributes entity.fields resolved.layout.attributeFields = some attributes ∧
      (∀ pair ∈ attributes, isName pair.1 = true) ∧ (attributes.map Prod.fst).Nodup ∧
      AttributeRow entity resolved.layout.attributeFields attributes := by
  obtain ⟨attributes, attributesEq, row⟩ :=
    writeAttributes_row ready writable placed fun _ member => member
  refine ⟨attributes, attributesEq, ?_, writable.attributeNames.sublist row.sublist, row⟩
  intro pair member
  have isTag := row.sublist.subset (List.mem_map_of_mem member)
  obtain ⟨field, fieldMember, tagEq⟩ := List.mem_map.1 isTag
  rw [← tagEq]
  exact (writable.attributeTags field fieldMember).1

/-- Behind a start tag, the rest of the element settles every name. -/
def InsideReads (context : Context) (layout : Layout) (entity : Entity) (text : String)
    (inside : Body) :
    Prop :=
  ∀ (frame : Frame) (values : FieldValues) (tag : Tag) (content : Content), frame.layout = layout →
    Started layout entity values → content.Holds text inside →
      Yields (context.readInside frame values tag content) fun values =>
        ∀ name, SameBinding (values.get? name) (entity.get? name)

private theorem inside_written (ready : Ready context.schema resolved entity)
    (writable : resolved.layout.Writable) (placed : resolved.layout.Placed)
    (entities : ∀ name value, (name, value) ∈ entity.fields → ∀ inner, value.Holds inner →
      EntityReads context inner)
    {attributes : List (String × String)}
    (attributesEq : writeAttributes entity.fields resolved.layout.attributeFields = some attributes) :
    ∃ text inside, inside.WellFormed ∧
      (∀ tag rest, entity.write context.schema tag rest =
        some (.element tag attributes text inside rest)) ∧
      InsideReads context resolved.layout entity text inside := by
  have layoutEq := ready.layout_eq
  cases contentEq : resolved.layout.contentField? with
  | some field =>
      obtain ⟨text, textEq, reads⟩ := readContentField_written context ready writable placed contentEq
      refine ⟨text, .stop, trivial, ?_, ?_⟩
      · intro tag rest
        exact write_of_contentField layoutEq attributesEq contentEq textEq
      · intro frame values tag content frameEq started holds
        rw [Context.readInside, frameEq, contentEq]
        exact reads frame values tag content holds started
  | none =>
      have each : ∀ field ∈ resolved.layout.elementFields, ∀ value,
          entity.get? field.name = some value → FieldReads context field value := by
        intro field member value bound
        exact fieldReads (fieldReady ready writable entities member bound)
      obtain ⟨body, bodyEq, bodyFormed, fieldRow⟩ := writeElements_row context each
      refine ⟨"", body, bodyFormed, ?_, ?_⟩
      · intro tag rest
        exact write_of_elementFields layoutEq attributesEq contentEq bodyEq
      · intro frame values tag content frameEq started holds
        have routes : ∀ field ∈ resolved.layout.elementFields, RoutesTo frame field := by
          intro field member
          apply routesTo
          · rw [frameEq]
            exact writable
          · rw [frameEq]
            exact member
        rw [Context.readInside, frameEq, contentEq]
        exact readChildren_fields fieldRow routes (apart_elementFields writable)
          (started.agrees ready writable placed contentEq) (shows_of_holds holds)

private theorem entityReads_of_inside (ready : Ready context.schema resolved entity)
    (writable : resolved.layout.Writable) (placed : resolved.layout.Placed)
    (entities : ∀ name value, (name, value) ∈ entity.fields → ∀ inner, value.Holds inner →
      EntityReads context inner) : EntityReads context entity := by
  intro tag named
  obtain ⟨attributes, attributesEq, attributesNamed, attributesDistinct, row⟩ :=
    attributes_written ready writable placed
  obtain ⟨text, inside, insideFormed, writes, reads⟩ :=
    inside_written ready writable placed entities attributesEq
  refine ⟨attributes, text, inside,
    ⟨named, attributesNamed, attributesDistinct, insideFormed, trivial⟩, writes tag, ?_⟩
  intro position content holds atRoot
  rw [readEntity_eq]
  apply (beginEntity_started ready writable placed row tag position atRoot).bind
  intro begun starts
  obtain ⟨frame, values⟩ := begun
  obtain ⟨frameEq, started⟩ := starts
  apply (reads frame values _ content frameEq started holds).bind
  intro fields same
  exact .pure (Entity.equal_iff.2 ⟨rfl, same⟩)

/-- From the entities inside to the one around them, all are read from what they are written as. -/
private theorem entityReads_steps (legible : Legible context.schema) :
    Steps
      (fun value => value.Sound (IsReady context.schema) →
        ∀ inner, value.Holds inner → EntityReads context inner)
      (fun entity => (∀ target, entity.Reaches target → IsReady context.schema target) →
        EntityReads context entity) where
  boolean := by
    intro truth sound inner holds
    cases holds
  character := by
    intro c sound inner holds
    cases holds
  integer := by
    intro number sound inner holds
    cases holds
  floating := by
    intro precision number sound inner holds
    cases holds
  text := by
    intro content sound inner holds
    cases holds
  date := by
    intro moment sound inner holds
    cases holds
  tree := by
    intro root sound inner holds
    cases holds
  entity := by
    intro inner ih sound held holds
    cases holds
    exact ih (sound inner (.entity inner))
  collection := by
    intro kind items ih sound inner holds
    cases holds with
    | item member holds =>
        apply ih _ member _ inner holds
        intro held heldHolds
        exact sound held (.item member heldHolds)
  map := by
    intro entries sound inner holds
    cases holds
  fields := by
    intro id className fields ih ready
    obtain ⟨resolved, readyHere⟩ := ready _ (.self _)
    have isClass : resolved ∈ context.schema.classes :=
      List.mem_of_find?_eq_some readyHere.isInstance.declared
    apply entityReads_of_inside readyHere (legible.writable resolved isClass)
      (legible.placed resolved isClass)
    intro name value member inner holds
    apply ih (name, value) member _ inner holds
    intro held heldHolds target reaches
    exact ready target (.field member heldHolds reaches)

/-! ### Documents -/

private theorem readDocument_rooted {className : String} {layout : Layout} {tag : Tag}
    {inside : Content}
    {root : Entity} {session : Session} (layoutEq : context.schema.layout? className = some layout)
    (tagEq : tag.name = layout.tag)
    (readEq : context.readEntity className tag inside true .initial = .ok (root, session)) :
    ∃ graph, context.readDocument className (.rooted tag inside) = .ok graph ∧ graph.root = root := by
  have rightRoot : (context.strict && decide (tag.name ≠ layout.tag)) = false := by
    simp [tagEq]
  refine ⟨⟨root, inside.encoding?.getD Markup.defaultEncoding,
    if context.schema.tracksLocations then some session.locations else none⟩, ?_, rfl⟩
  unfold Context.readDocument
  simp only [layoutEq, rightRoot, Bool.false_eq_true, if_false]
  change Except.bind (context.readEntity className tag inside true .initial) _ = _
  rw [readEq]
  rfl

/-- The document of an entity of the root class is read as an equal entity, whatever the options
are. -/
theorem read_render {declarations : Declarations} {schema : Schema}
    (built : declarations.build = .ok schema)
    (writable : ∀ resolved ∈ schema.classes, resolved.layout.Writable) (options : Options)
    (entity : Entity) (isRoot : entity.className = schema.root)
    (ready : ∀ target, entity.Reaches target → IsReady schema target) :
    ∃ document, entity.render schema = some document ∧
      ∃ graph, Reader.read ⟨schema, options⟩ document = .ok graph ∧ graph.root.equal entity = true := by
  let context : Context := ⟨schema, options.strict, none⟩
  have reads : EntityReads context entity :=
    (entityReads_steps ⟨writable, placed_of_build built⟩).ofEntity entity ready
  obtain ⟨resolved, readyRoot⟩ := ready entity (.self entity)
  have isClass : resolved ∈ schema.classes :=
    List.mem_of_find?_eq_some readyRoot.isInstance.declared
  have layoutEq := readyRoot.layout_eq
  obtain ⟨attributes, text, inside, formed, writes, readsElement⟩ :=
    reads resolved.layout.tag (writable resolved isClass).tag
  refine ⟨String.ofList (Body.element resolved.layout.tag attributes text inside .stop).chars, ?_, ?_⟩
  · have written := writes .stop
    unfold Entity.render
    change entity.write schema resolved.layout.tag .stop = _ at written
    simp only [layoutEq, written, Option.bind_eq_bind, Option.bind_some]
    rfl
  · obtain ⟨position, content, parsed, holds⟩ := Markup.parse_element formed options.extended
    obtain ⟨root, session, readEq, same⟩ := readsElement position content holds true .initial
    obtain ⟨graph, graphEq, rootEq⟩ := readDocument_rooted layoutEq rfl readEq
    refine ⟨graph, ?_, ?_⟩
    · unfold Reader.read Reader.readAs
      rw [← isRoot]
      simp only [parsed, ite_self]
      exact graphEq
    · rw [rootEq]
      exact same

def shopFields : List Field := [
  { name := "number", kind := .scalar (.integer .int), isAttribute := true, isRequired := true },
  { name := "open", kind := .scalar .boolean, default := some "true" },
  { name := "goods", kind := .many .list (.entity "Good") true },
  { name := "marks", kind := .many .set (.scalar .text) false },
  { name := "hours", kind := .map .explode }]

def goodFields : List Field := [
  { name := "price", kind := .scalar (.integer .long), isAttribute := true },
  { name := "label", kind := .scalar .text, isContent := true, trims := false }]

def shop : Declarations where
  classes := [{ name := "Shop", fields := shopFields }, { name := "Good", fields := goodFields }]
  roots := ["Shop"]

def tagged (fields : List Field) (tags : List (String × String)) : List TaggedField :=
  fields.zipWith (fun field pair => ⟨field, pair.1, pair.2⟩) tags

def shopClass : ResolvedClass where
  declared := { name := "Shop", fields := shopFields }
  layout := ⟨"shop", tagged shopFields
    [("number", "number"), ("open", "open"), ("goods", "good"), ("marks", "mark"), ("hours", "hour")]⟩

def goodClass : ResolvedClass where
  declared := { name := "Good", fields := goodFields }
  layout := ⟨"good", tagged goodFields [("price", "price"), ("label", "label")]⟩

def shopSchema : Schema where
  classes := [shopClass, goodClass]
  root := "Shop"
  naming := .lowerCamel
  strictAttributes := true
  locationTracker := none
  sourceTracker := none

def good : Entity :=
  .mk ⟨1⟩ "Good" [("price", .integer ⟨.long, -3, by decide, by decide⟩), ("label", .text " a<b ")]

def corner : Entity :=
  .mk ⟨0⟩ "Shop" [
    ("number", .integer ⟨.int, 7, by decide, by decide⟩),
    ("open", .boolean false),
    ("goods", .collection .list [.entity good]),
    ("marks", .collection .set [.text "m", .text "n&"]),
    ("hours", .map [("mon", "9")])]

private theorem good_elementFields : goodClass.layout.elementFields = [] := by
  decide +kernel

private theorem mem_shopClass {field : TaggedField} (member : field ∈ shopClass.layout.fields) :
    field = ⟨shopFields[0], "number", "number"⟩ ∨ field = ⟨shopFields[1], "open", "open"⟩ ∨
      field = ⟨shopFields[2], "goods", "good"⟩ ∨ field = ⟨shopFields[3], "marks", "mark"⟩ ∨
      field = ⟨shopFields[4], "hours", "hour"⟩ := by
  simp only [shopClass, tagged, shopFields, List.zipWith_cons_cons, List.zipWith_nil_left,
    List.mem_cons, List.not_mem_nil, or_false] at member
  exact member

private theorem good_ready : Ready shopSchema goodClass good where
  isInstance := {
    declared := by decide +kernel
    concrete := rfl
    distinct := by
      change List.Nodup _
      decide +kernel
    known := by decide +kernel
    fits := by
      intro field member value bound
      rcases List.mem_pair.1 member with rfl | rfl
      · cases bound
        rfl
      · cases bound
        trivial
    defaults := by
      intro _ field member
      rw [good_elementFields] at member
      cases member }
  writable := {
    filled := by
      intro field member
      rw [good_elementFields] at member
      cases member
    required := by decide +kernel
    defaults := by decide +kernel
    content := by
      intro field isContent
      cases isContent
      rfl
    trimmed := by
      intro field member trims value bound
      rcases List.mem_pair.1 member with rfl | rfl
      · cases bound
        trivial
      · cases trims
    keys := by
      intro field member
      rw [good_elementFields] at member
      cases member }

private theorem corner_ready : Ready shopSchema shopClass corner where
  isInstance := {
    declared := by decide +kernel
    concrete := rfl
    distinct := by
      change List.Nodup _
      decide +kernel
    known := by decide +kernel
    fits := by
      intro field member value bound
      rcases mem_shopClass member with rfl | rfl | rfl | rfl | rfl
      · cases bound
        rfl
      · cases bound
        trivial
      · cases bound
        refine .mk ?_ ?_
        · intro item isItem
          rw [List.mem_singleton.1 isItem]
          rfl
        · intro isSet
          cases isSet
      · cases bound
        refine .mk ?_ ?_
        · intro item isItem
          rcases List.mem_pair.1 isItem with rfl | rfl
          · trivial
          · trivial
        · intro _
          exact List.pairwise_pair.2 (by decide +kernel)
      · cases bound
        change List.Nodup _
        decide +kernel
    defaults := by
      intro content
      cases content }
  writable := {
    filled := by
      intro field member _ kind
      have isField := mem_shopClass (mem_fields_of_elementFields member)
      intro empty
      rcases isField with rfl | rfl | rfl | rfl | rfl <;> cases empty
    required := by decide +kernel
    defaults := by decide +kernel
    content := by
      intro field isContent
      cases isContent
    trimmed := by
      intro field member trims value bound
      rcases mem_shopClass member with rfl | rfl | rfl | rfl | rfl
      · cases bound
        trivial
      · cases bound
        trivial
      · cases bound
        intro item isItem
        rw [List.mem_singleton.1 isItem]
        trivial
      · cases bound
        intro item isItem
        rcases List.mem_pair.1 isItem with rfl | rfl
        · change Text.trim "m" = "m"
          decide +kernel
        · change Text.trim "n&" = "n&"
          decide +kernel
      · cases bound
        change ∀ entry ∈ [("mon", "9")], Text.trim entry.2 = entry.2
        decide +kernel
    keys := by
      intro field member kind
      have isField := mem_shopClass (mem_fields_of_elementFields member)
      rcases isField with rfl | rfl | rfl | rfl | rfl <;> cases kind }

private theorem sound_text (property : Entity → Prop) (content : String) :
    (Value.text content).Sound property := by
  have typed : (Value.text content).HasType .text := trivial
  exact .of_scalar typed

private theorem sound_integer (property : Entity → Prop) (number : Number.FixedInt) :
    (Value.integer number).Sound property := by
  have typed : (Value.integer number).HasType (.integer number.width) := rfl
  exact .of_scalar typed

private theorem good_sound :
    ∀ name value, (name, value) ∈ good.fields → value.Sound (IsReady shopSchema) := by
  intro name value member
  rcases List.mem_pair.1 member with same | same
  · cases same
    exact sound_integer _ _
  · cases same
    exact sound_text _ _

private theorem corner_sound :
    ∀ name value, (name, value) ∈ corner.fields → value.Sound (IsReady shopSchema) := by
  intro name value member
  simp only [corner, Entity.fields, List.mem_cons, Prod.mk.injEq, List.not_mem_nil, or_false] at member
  rcases member with ⟨_, rfl⟩ | ⟨_, rfl⟩ | ⟨_, rfl⟩ | ⟨_, rfl⟩ | ⟨_, rfl⟩
  · exact sound_integer _ _
  · have typed : (Value.boolean false).HasType .boolean := trivial
    exact .of_scalar typed
  · refine .collection ?_
    intro item isItem
    rw [List.mem_singleton.1 isItem]
    exact .entity (Entity.reaches_of_sound ⟨goodClass, good_ready⟩ good_sound)
  · refine .collection ?_
    intro item isItem
    rcases List.mem_pair.1 isItem with rfl | rfl
    · exact sound_text _ _
    · exact sound_text _ _
  · exact .map

/-- The corner shop is written, and read again in a strict read. -/
theorem read_render_corner :
    shop.build = .ok shopSchema ∧
    ∃ document, corner.render shopSchema = some document ∧
      document = "<shop number=\"7\"><open>false</open>" ++
        "<goods><good price=\"-3\"> a&lt;b </good></goods><mark>m</mark><mark>n&amp;</mark>" ++
        "<hours><hour><key>mon</key><value>9</value></hour></hours></shop>" ∧
      ∃ graph, Reader.read ⟨shopSchema, { strict := true }⟩ document = .ok graph ∧
        graph.root.equal corner = true := by
  have built : shop.build = .ok shopSchema := by decide +kernel
  have writable : ∀ resolved ∈ shopSchema.classes, resolved.layout.Writable := by decide +kernel
  have ready : ∀ target, corner.Reaches target → IsReady shopSchema target :=
    Entity.reaches_of_sound ⟨shopClass, corner_ready⟩ corner_sound
  obtain ⟨document, documentEq, readsBack⟩ :=
    read_render built writable { strict := true } corner rfl ready
  have written : corner.render shopSchema = some ("<shop number=\"7\"><open>false</open>" ++
      "<goods><good price=\"-3\"> a&lt;b </good></goods><mark>m</mark><mark>n&amp;</mark>" ++
      "<hours><hour><key>mon</key><value>9</value></hour></hours></shop>") := by
    decide +kernel
  refine ⟨built, document, documentEq, ?_, readsBack⟩
  rw [documentEq] at written
  exact Option.some.inj written

end Trellis.Reading
