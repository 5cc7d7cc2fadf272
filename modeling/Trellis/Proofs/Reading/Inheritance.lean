import Mathlib.Logic.Relation
import Trellis.Proofs.Reading.Foresight
import Trellis.Proofs.Reading.Reports
import Trellis.Proofs.Reading.Starts
import Trellis.Proofs.Schema.Acceptance

/-!
What a class keeps of its ancestors.

The lineage of an ancestor stands at the front of the lineage of a class, and so the fields of the
ancestor, with their tags, stand at the front of the fields of the class.  Lookups take the first
field that suits, so a name that leads to a field of the ancestor leads to the same field in the
class, whatever is declared below the ancestor.  Children are looked up only where no field is the
content: a content field, of an ancestor or added below, takes in the whole element.
-/

namespace Trellis.Schema

open Relation (TransGen)

variable {classes : List Class}

/-! ### Lineages and fields -/

/-- The lineage of a class goes on from that of each of its ancestors. -/
theorem IsLineage.prefix_of_extends (distinct : (classes.map (·.name)).Nodup)
    {declared ancestor : Class} {lineage above : List Class}
    (is : IsLineage classes declared lineage) (is' : IsLineage classes ancestor above)
    (up : TransGen (Extends classes) declared ancestor) : above <+: lineage := by
  induction is with
  | top noParent =>
      obtain ⟨next, first, _⟩ := TransGen.head'_iff.1 up
      rw [first.named] at noParent
      cases noParent
  | @extending declared parent between upFirst isBetween ih =>
      have isPrefix : above <+: between := by
        cases TransGen.head'_iff.1 up with
        | intro next further =>
            obtain ⟨first, further⟩ := further
            rw [← upFirst.unique distinct first] at further
            cases Relation.reflTransGen_iff_eq_or_transGen.1 further with
            | inl same =>
                subst same
                exact is'.eq distinct isBetween ▸ List.prefix_rfl
            | inr further => exact ih further
      exact isPrefix.trans (List.prefix_append between [declared])

/-- A longer lineage adds fields behind those that are there. -/
private theorem layout_fields_prefix (naming : Naming) {above lineage : List Class}
    (isPrefix : above <+: lineage) (ancestor declared : Class) :
    (ancestor.layout naming above).fields <+: (declared.layout naming lineage).fields := by
  obtain ⟨below, rfl⟩ := isPrefix
  simp only [Class.layout, List.flatMap_append]
  exact List.prefix_append _ _

private theorem ancestor_member {declared ancestor : Class}
    (up : TransGen (Extends classes) declared ancestor) :
    ancestor ∈ classes := by
  obtain ⟨_, _, last⟩ := TransGen.tail'_iff.1 up
  exact last.member

/-! ### Lookups -/

private theorem find?_of_prefix {α : Type} {test : α → Bool} {first all : List α}
    (isPrefix : first <+: all)
    {found : α} (foundEq : first.find? test = some found) : all.find? test = some found := by
  obtain ⟨rest, rfl⟩ := isPrefix
  rw [List.find?_append, foundEq]
  rfl

section Lookups

variable {inherited layout : Layout}

private theorem elementField?_of_prefix (isPrefix : inherited.fields <+: layout.fields) {name : String}
    {field : TaggedField} (found : inherited.elementField? name = some field) :
    layout.elementField? name = some field :=
  find?_of_prefix (isPrefix.filter _) found

private theorem attributeField?_of_prefix (isPrefix : inherited.fields <+: layout.fields)
    {name : String}
    {field : TaggedField} (found : inherited.attributeField? name = some field) :
    layout.attributeField? name = some field :=
  find?_of_prefix isPrefix found

private theorem contentField?_of_prefix (isPrefix : inherited.fields <+: layout.fields)
    {field : TaggedField}
    (found : inherited.contentField? = some field) : layout.contentField? = some field :=
  find?_of_prefix isPrefix found

private theorem exists_attributeField? {field : TaggedField} (member : field ∈ layout.fields)
    (isAttribute : field.declared.isAttribute = true) :
    ∃ first, layout.attributeField? field.tag = some first := by
  refine Option.isSome_iff_exists.1 (List.find?_isSome.2 ⟨field, member, ?_⟩)
  rw [isAttribute, beq_self_eq_true]
  rfl

end Lookups

end Trellis.Schema

namespace Trellis.Reading

open Relation (TransGen)
open Trellis.Graph (Entity Value)
open Markup (Content Tag)
open Schema (Declarations Extends IsLineage Layout ScalarType TaggedField)

/-! ### Children -/

private theorem exists_routes {layout : Layout} {field : TaggedField} (member : field ∈ layout.fields)
    (isElement : IsElementField field) {name : String} (claims : Claims field name) :
    ∃ first, Routes layout name first := by
  have isCandidate : field ∈ layout.elementFields := by
    refine List.mem_filter.2 ⟨member, ?_⟩
    rw [isElement.1, isElement.2]
    rfl
  have found : (layout.elementField? name).isSome :=
    List.find?_isSome.2 ⟨field, isCandidate, goesBy_iff_claims.2 claims⟩
  obtain ⟨first, firstEq⟩ := Option.isSome_iff_exists.1 found
  exact ⟨first, elementField?_eq_some_iff.1 firstEq⟩

/-- Wherever an entity of the class has begun and some children of it can be read, a child of the name
that comes next is read into the field, unless the field has its only element already. -/
def ReadsInto (schema : Schema) (className name : String) (field : TaggedField) : Prop :=
  ∀ (strict : Bool) (source : Option Source),
    let context : Context := ⟨schema, strict, source⟩
    ∀ (tag : Tag) (atRoot : Bool) (session begun : Session) (frame : Frame) (values : FieldValues),
      context.beginEntity className tag atRoot session = .ok ((frame, values), begun) →
      ∀ (before : List Part) (encoding : String) (found : FieldValues × Session),
        context.readChildren frame values [] (ahead before (.closed encoding)) begun = .ok found →
        ∀ (child : Tag) (inside rest : Content), child.name = name →
          let outcome :=
            context.readEntity className tag (ahead before (.element child inside rest)) atRoot session
          let repeated := field.declared.isUnwrapped = false ∧ Taken frame.layout field.tag before
          (repeated → outcome = .error (.duplicateElement name (context.locate child.position))) ∧
            (¬ repeated → ∃ taken, outcome = (do
              let values ← context.readField frame found.1 field child inside
              let values ← context.readChildren frame values taken rest
              return .mk frame.id className values : Read Graph.Entity) found.2)

private theorem readEntity_of_children {context : Context} {className : String} {tag : Tag}
    {atRoot : Bool}
    {session begun : Session} {frame : Frame} {values : FieldValues}
    (begins : context.beginEntity className tag atRoot session = .ok ((frame, values), begun))
    (noContent : frame.layout.contentField? = none) (inside : Content) :
    context.readEntity className tag inside atRoot session = (do
      let values ← context.readChildren frame values [] inside
      return .mk frame.id className values : Read Graph.Entity) begun := by
  unfold Context.readEntity Context.entity
  rw [Read.bind_of_ok begins]
  simp only [noContent]
  rfl

private theorem readsInto_of_routes {schema : Schema} {className name : String} {layout : Layout}
    {field : TaggedField} (layoutEq : schema.layout? className = some layout)
    (noContent : layout.contentField? = none) (routes : Routes layout name field) :
    ReadsInto schema className name field := by
  intro strict source context tag atRoot session begun frame values begins before encoding found
    succeeds child inside rest named outcome repeated
  have sameLayout : layout = frame.layout :=
    Option.some.inj (layoutEq.symm.trans (beginEntity_layout? begins))
  rw [sameLayout] at noContent routes
  rw [← named] at routes ⊢
  have outcomeEq : outcome = _ := readEntity_of_children begins noContent _
  obtain ⟨duplicate, goesOn⟩ := readChildren_child succeeds routes inside rest
  constructor
  · intro isRepeated
    rw [outcomeEq, Read.bind_apply, duplicate isRepeated]
  · intro notRepeated
    obtain ⟨taken, childrenEq⟩ := goesOn notRepeated
    refine ⟨taken, ?_⟩
    rw [outcomeEq, Read.bind_apply, childrenEq, ← Read.bind_apply, bind_assoc]

/-! ### Contents -/

def onlyWith (className : String) (frame : Frame) (values : FieldValues) (begun : Session)
    (field : TaggedField) (value : Value) : Entity × Session :=
  (.mk frame.id className (values.set field.name value),
    { begun with locations := begun.locations.setField frame.id field.name frame.location })

/-- Wherever an entity of the class has begun, the rest of its element gives the field its value and
does nothing else.  A tree takes in all of the element.  Every other scalar is written as the text of
the element, and an element in it is refused, whatever fields go by its name. -/
def TakesContent (schema : Schema) (className : String) (field : TaggedField) (type : ScalarType) :
    Prop :=
  ∀ (strict : Bool) (source : Option Source),
    let context : Context := ⟨schema, strict, source⟩
    ∀ (tag : Tag) (atRoot : Bool) (session begun : Session) (frame : Frame) (values : FieldValues),
      context.beginEntity className tag atRoot session = .ok ((frame, values), begun) →
      let outcome (inside : Content) := context.readEntity className tag inside atRoot session
      let result := onlyWith className frame values begun field
      (type = .tree → ∀ inside,
        outcome inside = (context.treeOf tag inside).map fun tree => result (.tree tree)) ∧
      (type ≠ .tree → ∀ (texts : List (Position × String)),
        (∀ encoding, outcome (.behind texts (.closed encoding)) =
          (coerce strict field.declared type (Content.joined texts) (context.locate tag.position)).map
            result) ∧
        ∀ child inside rest, outcome (.behind texts (.element child inside rest)) =
          .error (.unexpectedElement child.name (context.locate child.position)))

private theorem readEntity_of_content {context : Context} {className : String} {tag : Tag}
    {atRoot : Bool}
    {session begun : Session} {frame : Frame} {values : FieldValues} {field : TaggedField}
    {type : ScalarType}
    (begins : context.beginEntity className tag atRoot session = .ok ((frame, values), begun))
    (isContent : frame.layout.contentField? = some field)
    (isScalar : field.declared.scalarType? = some type) (inside : Content) :
    context.readEntity className tag inside atRoot session =
      (context.scalar field.declared type tag inside).map
        (onlyWith className frame values begun field) := by
  unfold Context.readEntity Context.entity
  rw [Read.bind_of_ok begins]
  simp only [isContent, Context.readContentField, isScalar]
  cases context.scalar field.declared type tag inside with
  | error error => rfl
  | ok value => rfl

private theorem takesContent_of_contentField? {schema : Schema} {className : String} {layout : Layout}
    {field : TaggedField} {type : ScalarType} (layoutEq : schema.layout? className = some layout)
    (isContent : layout.contentField? = some field)
    (isScalar : field.declared.scalarType? = some type) :
    TakesContent schema className field type := by
  intro strict source context tag atRoot session begun frame values begins outcome result
  have sameLayout : layout = frame.layout :=
    Option.some.inj (layoutEq.symm.trans (beginEntity_layout? begins))
  rw [sameLayout] at isContent
  have outcomeEq (inside : Content) : outcome inside =
      (context.scalar field.declared type tag inside).map result :=
    readEntity_of_content begins isContent isScalar inside
  constructor
  · rintro rfl inside
    rw [outcomeEq, Context.scalar]
    cases context.treeOf tag inside with
    | error error => rfl
    | ok tree => rfl
  · intro notTree texts
    have scalarEq (inside : Content) : context.scalar field.declared type tag inside =
        context.textOf inside >>= fun text =>
          coerce strict field.declared type text (context.locate tag.position) := by
      cases type with
      | tree => exact absurd rfl notTree
      | _ => rfl
    constructor
    · intro encoding
      have textEq : context.textOf (.behind texts (.closed encoding)) =
          .ok (Content.joined texts ++ "") :=
        textOf_behind context texts (.closed encoding)
      rw [outcomeEq, scalarEq, textEq, String.append_empty]
      rfl
    · intro child inside rest
      have textEq : context.textOf (.behind texts (.element child inside rest)) =
          .error (.unexpectedElement child.name (context.locate child.position)) :=
        textOf_behind context texts (.element child inside rest)
      rw [outcomeEq, scalarEq, textEq]
      rfl

/-! ### Inheritance -/

/-- In a schema that is built, the lineage of a class holds distinct classes, the topmost one first,
and begins with the lineage of each ancestor.  The fields of the ancestor, tags included, come first
among those of the class; a name that an element field or an attribute field of the ancestor claims
leads in both to the same field, the first that has it.  A child of such a name is read into that
field in every entity of the class, if the class has no content field.  If it has one, which may be
that of the ancestor, every entity of the class takes its whole element as the content. -/
theorem inheritance_conservative {declarations : Declarations} {schema : Schema}
    (built : declarations.build = .ok schema) {declared ancestor : Schema.Class}
    (member : declared ∈ declarations.classes)
    (up : TransGen (Extends declarations.classes) declared ancestor) :
    ∃ lineage above layout inherited,
      declarations.lineage declared = .ok lineage ∧ IsLineage declarations.classes declared lineage ∧
      (lineage.map (·.name)).Nodup ∧
      declarations.lineage ancestor = .ok above ∧ above <+: lineage ∧
      schema.find? declared.name = some ⟨declared, layout⟩ ∧
      schema.find? ancestor.name = some ⟨ancestor, inherited⟩ ∧
      inherited.fields <+: layout.fields ∧
      (∀ field ∈ inherited.fields, IsElementField field → ∀ name, Claims field name →
        ∃ first, Routes inherited name first ∧ Routes layout name first ∧
          (layout.contentField? = none → ReadsInto schema declared.name name first)) ∧
      (∀ field ∈ inherited.fields, field.declared.isAttribute = true →
        ∃ first, inherited.attributeField? field.tag = some first ∧
          layout.attributeField? field.tag = some first) ∧
      (∀ field, inherited.contentField? = some field → layout.contentField? = some field) ∧
      ∀ field, layout.contentField? = some field →
        ∃ type, field.declared.scalarType? = some type ∧
          TakesContent schema declared.name field type := by
  have builds := Schema.build_eq_ok_iff.1 built
  have distinct := builds.distinct
  obtain ⟨lineage, lineageEq, _, isResolved⟩ := builds.resolved member
  obtain ⟨above, aboveEq, _, isResolved'⟩ := builds.resolved (Schema.ancestor_member up)
  obtain ⟨isLineage, names⟩ := Schema.lineage_isLineage lineageEq
  have isPrefix : above <+: lineage :=
    isLineage.prefix_of_extends distinct (Schema.lineage_isLineage aboveEq).1 up
  have foundEq := builds.find?_of_mem isResolved
  have foundEq' := builds.find?_of_mem isResolved'
  have fieldsPrefix := Schema.layout_fields_prefix declarations.naming isPrefix ancestor declared
  have layoutEq : schema.layout? declared.name = some (declared.layout declarations.naming lineage) := by
    rw [Schema.layout?, foundEq]
    rfl
  refine ⟨lineage, above, _, _, lineageEq, isLineage, names, aboveEq, isPrefix, foundEq, foundEq',
    fieldsPrefix, ?_, ?_, ?_, ?_⟩
  · intro field isField isElement name claims
    obtain ⟨first, routes⟩ := exists_routes isField isElement claims
    have kept := elementField?_eq_some_iff.1
      (Schema.elementField?_of_prefix fieldsPrefix (elementField?_eq_some_iff.2 routes))
    refine ⟨first, routes, kept, ?_⟩
    intro noContent
    exact readsInto_of_routes layoutEq noContent kept
  · intro field isField isAttribute
    obtain ⟨first, firstEq⟩ := Schema.exists_attributeField? isField isAttribute
    exact ⟨first, firstEq, Schema.attributeField?_of_prefix fieldsPrefix firstEq⟩
  · intro field isContent
    exact Schema.contentField?_of_prefix fieldsPrefix isContent
  · intro field isContent
    have placed := Schema.placed_of_build built _ isResolved
    obtain ⟨type, isScalar⟩ := placed.content_scalarType? isContent
    exact ⟨type, isScalar, takesContent_of_contentField? layoutEq isContent isScalar⟩

/-! ### Stationery -/

def sheet : Schema.Class where
  name := "Sheet"
  isAbstract := true
  fields := [
    { name := "title", kind := .scalar .text },
    { name := "heading", kind := .scalar .text, otherTag := some "title" },
    { name := "lang", kind := .scalar .text, isAttribute := true }]

def card : Schema.Class where
  name := "Card"
  superclass := some "Sheet"
  fields := [
    { name := "title", kind := .scalar (.integer .int) },
    { name := "lang", kind := .scalar .boolean, isAttribute := true }]

def postcard : Schema.Class where
  name := "Postcard"
  superclass := some "Card"
  fields := [{ name := "title", kind := .many .list (.scalar .text) false, itemTag := some "title" }]

def memo : Schema.Class where
  name := "Memo"
  superclass := some "Card"
  fields := [{ name := "text", kind := .scalar .text, isContent := true }]

def stationery : Declarations where
  classes := [memo, postcard, card, sheet]
  roots := ["Memo"]

private theorem card_extends_sheet : Extends stationery.classes card sheet :=
  ⟨by decide, rfl⟩

private theorem postcard_extends_sheet : TransGen (Extends stationery.classes) postcard sheet :=
  .trans (.single ⟨by decide, rfl⟩) (.single card_extends_sheet)

private theorem memo_extends_sheet : TransGen (Extends stationery.classes) memo sheet :=
  .trans (.single ⟨by decide, rfl⟩) (.single card_extends_sheet)

/-- The title of a postcard is that of a sheet, although a card and a postcard declare titles of other
kinds; the language is that of a sheet too.  The text of a memo is the text of its element. -/
theorem inheritance_conservative_of_postcard :
    ∃ schema layout inherited title lang text, stationery.build = .ok schema ∧
      postcard ∈ stationery.classes ∧ TransGen (Extends stationery.classes) postcard sheet ∧
      schema.layout? "Postcard" = some layout ∧ schema.layout? "Sheet" = some inherited ∧
      inherited.fields <+: layout.fields ∧ layout.fields.length = 6 ∧
      Routes inherited "title" title ∧ Routes layout "title" title ∧
      title.declared.kind = .scalar .text ∧ ReadsInto schema "Postcard" "title" title ∧
      inherited.attributeField? "lang" = some lang ∧ layout.attributeField? "lang" = some lang ∧
      (schema.layout? "Memo").bind (·.contentField?) = some text ∧
      TakesContent schema "Memo" text .text := by
  have checked : stationery.build.toOption.any (fun schema =>
      (schema.layout? "Postcard").any fun layout =>
        (schema.layout? "Sheet").any fun inherited =>
          layout.fields.length = 6 ∧ layout.contentField? = none ∧
          inherited.fields.any (fun field => field.declared.isAttribute && field.tag == "lang") ∧
          (inherited.elementField? "title").any (fun title => title.declared.kind = .scalar .text) ∧
          ((schema.layout? "Memo").bind (·.contentField?)).any fun text =>
            text.declared.scalarType? = some .text) = true := by
    decide +kernel
  obtain ⟨schema, built, checked⟩ := Schema.exists_built checked
  simp only [Option.any_eq_true, decide_eq_true_eq, List.any_eq_true, Bool.and_eq_true,
    beq_iff_eq] at checked
  obtain ⟨layout, layoutEq, inherited, inheritedEq, count, noContent, ⟨field, isField, isAttribute, tagEq⟩,
    ⟨title, titleEq, kindEq⟩, text, textEq, isText⟩ := checked
  have member : postcard ∈ stationery.classes := by decide
  obtain ⟨_, _, layout', inherited', _, _, _, _, _, found, found', fieldsPrefix, elements, attributes, _⟩ :=
    inheritance_conservative built member postcard_extends_sheet
  have same : layout = layout' := by
    rw [Schema.layout?, show "Postcard" = postcard.name from rfl, found] at layoutEq
    exact (Option.some.inj layoutEq).symm
  have same' : inherited = inherited' := by
    rw [Schema.layout?, show "Sheet" = sheet.name from rfl, found'] at inheritedEq
    exact (Option.some.inj inheritedEq).symm
  subst same same'
  have titleRoutes := elementField?_eq_some_iff.1 titleEq
  obtain ⟨_, _, sameFields, isElement, claims, _⟩ := id titleRoutes
  have isTitle : title ∈ inherited.fields := by
    rw [sameFields]
    exact List.mem_append_right _ List.mem_cons_self
  obtain ⟨first, firstRoutes, kept, readsInto⟩ := elements title isTitle isElement "title" claims
  obtain rfl : first = title :=
    Option.some.inj ((elementField?_eq_some_iff.2 firstRoutes).symm.trans titleEq)
  obtain ⟨lang, langEq, langEq'⟩ := attributes field isField isAttribute
  rw [tagEq] at langEq langEq'
  have isMemo : memo ∈ stationery.classes := by decide
  obtain ⟨_, _, _, _, _, _, _, _, _, foundMemo, _, _, _, _, _, contents⟩ :=
    inheritance_conservative built isMemo memo_extends_sheet
  have textEq' := textEq
  rw [Schema.layout?, show "Memo" = memo.name from rfl, foundMemo] at textEq'
  obtain ⟨type, typeEq, takes⟩ := contents text textEq'
  obtain rfl : ScalarType.text = type := Option.some.inj (isText.symm.trans typeEq)
  exact ⟨schema, layout, inherited, first, lang, text, built, member, postcard_extends_sheet, layoutEq,
    inheritedEq, fieldsPrefix, count, firstRoutes, kept, kindEq, readsInto noContent, langEq, langEq',
    textEq, takes⟩

/-- The text of a memo takes in its whole element, and the title of a sheet is refused there.  In a sheet
itself, the heading claims the title in vain. -/
theorem inherited_title_refused :
    let document := "<memo><title>x</title></memo>"
    ∃ schema inherited title heading, stationery.build = .ok schema ∧
      TransGen (Extends stationery.classes) memo sheet ∧
      schema.layout? "Sheet" = some inherited ∧ Routes inherited "title" title ∧
      heading ∈ inherited.fields ∧ IsElementField heading ∧ Claims heading "title" ∧ heading ≠ title ∧
      (⟨schema, {}⟩ : Reader).readAs "Memo" document none =
        .error (.unexpectedElement "title" ⟨⟨1, 7⟩, none⟩) := by
  intro document
  have checked : stationery.build.toOption.any (fun schema =>
      (schema.layout? "Sheet").any fun inherited =>
        (inherited.elementField? "title").any fun title =>
          inherited.fields.any (fun heading => heading.declared.isAttribute = false ∧
            heading.declared.isContent = false ∧ heading.goesBy "title" ∧ heading ≠ title) ∧
          failure? ((⟨schema, {}⟩ : Reader).readAs "Memo" document none) =
            some (.unexpectedElement "title" ⟨⟨1, 7⟩, none⟩)) = true := by
    decide +kernel
  obtain ⟨schema, built, checked⟩ := Schema.exists_built checked
  simp only [Option.any_eq_true, decide_eq_true_eq, List.any_eq_true] at checked
  obtain ⟨inherited, inheritedEq, title, titleEq, ⟨heading, isField, noAttribute, noContent, goesBy,
    other⟩, fails⟩ := checked
  exact ⟨schema, inherited, title, heading, built, memo_extends_sheet, inheritedEq,
    elementField?_eq_some_iff.1 titleEq, isField, ⟨noAttribute, noContent⟩,
    goesBy_iff_claims.1 goesBy, other, failure?_eq_some fails⟩

end Trellis.Reading
