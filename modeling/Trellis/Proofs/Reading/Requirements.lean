import Trellis.Proofs.Reading.Origins

/-!
Required attributes.

A strict read asks whether a start tag has an attribute with the tag of each required field.  Whether
that attribute gives the field is another matter: those that belong to others are passed over, and of
two fields with one tag the first has it.  Where the tag of a required field is its own, the entity
holds a value from the start tag; where it is not, the read goes on and the field has its default at
most.
-/

namespace Trellis.Reading

open Trellis.Graph (Entity IsDefault Value)
open Markup (Content Document Tag)
open Schema (Declarations Layout ScalarType TaggedField)

def OwnsTag (layout : Layout) (atRoot : Bool) (field : TaggedField) : Prop :=
  isOwnAttribute atRoot field.tag = true ∧ layout.attributeField? field.tag = some field

instance (layout : Layout) (atRoot : Bool) (field : TaggedField) :
    Decidable (OwnsTag layout atRoot field) :=
  inferInstanceAs (Decidable (_ ∧ _))

/-- What a strict read makes of a required attribute: the start tag has one with its tag.  If that
gives the field, there is a value, and it is what the attribute is coerced to unless the name is that of
other fields too or the field takes all the content as well.  If it does not give the field, there is
the default at most, with the same exceptions. -/
structure RequirementMet (context : Context) (layout : Layout) (atRoot : Bool) (start : Start)
    (field : TaggedField) (value : Option Value) : Prop where
  present : ∃ raw, (field.tag, raw) ∈ start.tag.attributes
  bound : OwnsTag layout atRoot field → value.isSome = true
  given : OwnsTag layout atRoot field → layout.Sole field → layout.contentField? ≠ some field →
    ∃ type raw read, (field.tag, raw) ∈ start.tag.attributes ∧
      field.declared.scalarType? = some type ∧
      coerce context.strict field.declared type raw (context.locate start.tag.position) = .ok read ∧
      value = some read
  passedOver : ¬ OwnsTag layout atRoot field → layout.Sole field →
    layout.contentField? ≠ some field → ∀ read, value = some read → IsDefault field.declared read

section Entities

variable {context : Context} {layout : Layout} {atRoot : Bool} {start : Start} {field : TaggedField}
  {frame : Frame} {tag : Tag} {inside : Content} {values values' : FieldValues} {name : String}
  {session session' : Session}

/-! ### Names stay bound -/

private theorem readAttributes_contains {attributes : List (String × String)}
    (bound : values.contains name = true)
    (runs : context.readAttributes frame tag atRoot values attributes session =
      .ok (values', session')) : values'.contains name = true := by
  induction attributes generalizing values session with
  | nil =>
      cases runs
      exact bound
  | cons pair rest ih =>
      obtain ⟨between, middle, goesOn, here⟩ := readAttributes_cons_eq_ok runs
      rcases here with ⟨other, _, value, _, _, _, _, rfl⟩ | ⟨rfl, _⟩
      · exact ih (OrderedMap.contains_set bound other.name value) goesOn
      · exact ih bound goesOn

private theorem readChildren_contains {seen : List String} {content : Content}
    (bound : values.contains name = true)
    (runs : context.readChildren frame values seen content session = .ok (values', session')) :
    values'.contains name = true := by
  induction content generalizing values seen session with
  | closed encoding =>
      cases runs
      exact bound
  | broken ending => cases runs
  | text position text rest ih =>
      obtain ⟨_, _, goesOn⟩ := Read.lift_bind_eq_ok runs
      exact ih bound goesOn
  | element tag inside rest _ ih =>
      simp only [Context.readChildren] at runs
      cases routeEq : frame.layout.elementField? tag.name with
      | none =>
          simp only [routeEq] at runs
          obtain ⟨_, _, goesOn⟩ := Read.lift_bind_eq_ok runs
          exact ih bound goesOn
      | some other =>
          simp only [routeEq] at runs
          obtain ⟨_, _, goesOn⟩ := Read.lift_bind_eq_ok runs
          obtain ⟨between, middle, fieldRun, goesOn⟩ := Read.bind_eq_ok goesOn
          obtain ⟨value, rfl⟩ := readField_eq_set fieldRun
          exact ih (OrderedMap.contains_set bound other.name value) goesOn

private theorem readAttributes_binds {attributes : List (String × String)} {type : ScalarType}
    (typeEq : field.declared.scalarType? = some type)
    (runs : context.readAttributes frame tag atRoot values attributes session =
      .ok (values', session'))
    {pair : String × String} (belongs : pair ∈ attributesOf frame.layout atRoot field attributes) :
    values'.contains field.name = true := by
  induction attributes generalizing values session with
  | nil => cases belongs
  | cons first rest ih =>
      obtain ⟨between, middle, goesOn, here⟩ := readAttributes_cons_eq_ok runs
      obtain ⟨member, own, routeEq⟩ := mem_attributesOf_iff.1 belongs
      rcases List.mem_cons.1 member with rfl | later
      · rcases here with ⟨other, _, value, _, otherEq, _, _, rfl⟩ | ⟨_, none⟩
        · rw [routeEq] at otherEq
          cases otherEq
          refine readAttributes_contains ?_ goesOn
          rw [OrderedMap.contains, OrderedMap.get?_set_self, Option.isSome_some]
        · exact absurd typeEq (none field type own routeEq)
      · exact ih goesOn (mem_attributesOf_iff.2 ⟨later, own, routeEq⟩)

private theorem readEntity_binds {className : String} {entity : Entity} (placed : layout.Placed)
    (layoutEq : context.schema.layout? className = some layout)
    (runs : context.readEntity className tag inside atRoot session = .ok (entity, session'))
    {pair : String × String} (belongs : pair ∈ attributesOf layout atRoot field tag.attributes) :
    (entity.get? field.name).isSome = true := by
  obtain ⟨frame, values, begun, values', begins, goesOn, rfl⟩ := entity_eq_ok runs
  obtain rfl : frame.layout = layout :=
    Option.some.inj ((beginEntity_layout? begins).symm.trans layoutEq)
  have isAttribute := attributeField?_mem (mem_attributesOf_iff.1 belongs).2.2
  obtain ⟨type, typeEq⟩ := placed.scalarType? isAttribute.1 (.inl isAttribute.2)
  obtain ⟨_, _, _, _, _, _, _, attributesEq⟩ := beginEntity_eq_ok begins
  have bound := readAttributes_binds typeEq attributesEq belongs
  cases contentEq : frame.layout.contentField? with
  | some other =>
      simp only [contentEq] at goesOn
      obtain ⟨_, otherTypeEq⟩ := placed.content_scalarType? contentEq
      obtain ⟨value, _, rfl⟩ := readContentField_eq_ok otherTypeEq goesOn
      exact OrderedMap.contains_set bound other.name value
  | none =>
      simp only [contentEq] at goesOn
      exact readChildren_contains bound goesOn

/-! ### Required attributes are present -/

private theorem present_of_requireAttributes (strict : context.strict = true)
    (required : context.requireAttributes frame tag = .ok ())
    (member : field ∈ frame.layout.attributeFields) (isRequired : field.declared.isRequired = true) :
    ∃ raw, (field.tag, raw) ∈ tag.attributes := by
  unfold Context.requireAttributes at required
  simp only [strict, if_true] at required
  split at required
  · cases required
  · rename_i noneMissing
    have notMissing := List.find?_eq_none.1 noneMissing field member
    simp only [isRequired, Bool.true_and, Bool.not_eq_true', Bool.not_eq_false,
      List.any_eq_true, beq_iff_eq] at notMissing
    obtain ⟨⟨name, raw⟩, isPair, rfl⟩ := notMissing
    exact ⟨raw, isPair⟩

private theorem requirementMet_of_heldFrom {value : Option Value}
    (isAttribute : field.declared.isAttribute = true)
    (present : ∃ raw, (field.tag, raw) ∈ start.tag.attributes)
    (bound : ∀ pair ∈ attributesOf layout atRoot field start.tag.attributes, value.isSome = true)
    (held : layout.Sole field → HeldFrom context layout atRoot start field value) :
    RequirementMet context layout atRoot start field value := by
  refine ⟨present, ?_, ?_, ?_⟩
  · intro owns
    obtain ⟨raw, isPair⟩ := present
    exact bound (field.tag, raw) (mem_attributesOf_iff.2 ⟨isPair, owns⟩)
  · intro owns sole notContent
    obtain ⟨raw, isPair⟩ := present
    obtain ⟨type, read, typeEq, coerceEq, valueEq⟩ := (held sole).fromAttribute notContent
      (field.tag, raw) (mem_attributesOf_iff.2 ⟨isPair, owns⟩)
    exact ⟨type, raw, read, isPair, typeEq, coerceEq, valueEq⟩
  · intro disowned sole notContent
    have noneOwn : attributesOf layout atRoot field start.tag.attributes = [] := by
      refine List.eq_nil_iff_forall_not_mem.2 ?_
      intro pair belongs
      obtain ⟨_, own, routeEq⟩ := mem_attributesOf_iff.1 belongs
      rw [← tag_eq_of_attributeField? routeEq] at own routeEq
      exact disowned ⟨own, routeEq⟩
    have noChildren : childrenOf layout field start.inside = [] := by
      unfold childrenOf
      split
      · exact routed_of_attribute isAttribute start.inside
      · rfl
    exact (held sole).fromDefault notContent noneOwn noChildren

end Entities

/-- A strict read finds the attributes that a class requires at the start tag of each of its entities,
and the entity holds the values of those whose tags are their own. -/
theorem required_attributes_present (reader : Reader) {declarations : Declarations}
    (built : declarations.build = .ok reader.schema) (strict : reader.options.strict = true)
    (className document : String) (source : Option Source) {graph : ObjectGraph}
    (reads : reader.readAs className document source = .ok graph) :
    let context : Context :=
      ⟨reader.schema, reader.options.strict, if reader.schema.tracksSources then source else none⟩
    ∃ (tag : Tag) (inside : Content),
      Document.parse reader.options.extended document = .rooted tag inside ∧
      ∀ entity, graph.root.Reaches entity → ∃ start layout,
        IsEntityAt context (Start.all reader.schema ⟨className, tag, inside⟩) entity start layout ∧
        ∀ field ∈ layout.attributeFields, field.declared.isRequired = true →
          RequirementMet context layout (entity.id.value == 0) start field
            (entity.get? field.name) := by
  intro context
  obtain ⟨tag, inside, session, documentEq, entityEq, _⟩ := readDocument_eq_ok reads
  refine ⟨tag, inside, documentEq, ?_⟩
  intro entity reaches
  obtain ⟨start, layout, isAt⟩ := exists_isEntityAt entityEq reaches
  refine ⟨start, layout, isAt, ?_⟩
  intro field member isRequired
  obtain ⟨before, after, _, readEq⟩ := isAt.read
  obtain ⟨frame, _, _, _, begins, _, _⟩ := entity_eq_ok readEq
  obtain ⟨_, _, _, _, required, _⟩ := beginEntity_eq_ok begins
  obtain rfl : frame.layout = layout :=
    Option.some.inj ((beginEntity_layout? begins).symm.trans isAt.layout_eq)
  have present := present_of_requireAttributes strict required member isRequired
  have bound (pair) (belongs : pair ∈ attributesOf frame.layout (entity.id.value == 0) field
      start.tag.attributes) : (entity.get? field.name).isSome = true :=
    readEntity_binds (isAt.placed built) isAt.layout_eq readEq belongs
  exact requirementMet_of_heldFrom (Schema.Layout.mem_attributeFields_iff.1 member).2 present bound
    fun sole => isAt.heldFrom built documentEq sole

def lackedAttributes (layout : Layout) (entity : Entity) : List String :=
  ((layout.attributeFields.filter (·.declared.isRequired)).filter fun field =>
    (entity.get? field.name).isNone).map (·.name)

/-- A server with four required attributes: one tag has a prefix, one is that of the namespace of the
document, and one is that of another field. -/
def server : Declarations where
  classes := [
    { name := "Server"
      fields := [
        { name := "id", kind := .scalar .text, isAttribute := true, isRequired := true },
        { name := "host", kind := .scalar .text, isAttribute := true, isRequired := true
          tagName := some "x:host" },
        { name := "space", kind := .scalar .text, isAttribute := true, isRequired := true
          tagName := some "xmlns" },
        { name := "code", kind := .scalar .text, isAttribute := true, isRequired := true
          tagName := some "id" }] }]
  roots := ["Server"]

/-- The attributes that a server requires are all there, and it is read without three of them. -/
theorem required_attributes_lacked :
    let document := "<server id='a' x:host='b' xmlns='c'/>"
    ∃ schema layout graph, server.build = .ok schema ∧ schema.layout? "Server" = some layout ∧
      (Reader.mk schema {}).readAs "Server" document none = .ok graph ∧
      lackedAttributes layout graph.root = ["host", "space", "code"] := by
  intro document
  have passes : server.build.toOption.any (fun schema =>
      (schema.layout? "Server").any fun layout =>
        ((Reader.mk schema {}).readAs "Server" document none).toOption.any fun graph =>
          lackedAttributes layout graph.root = ["host", "space", "code"]) = true := by
    decide +kernel
  obtain ⟨schema, built, passes⟩ := Schema.exists_built passes
  simp only [Option.any_eq_true, decide_eq_true_eq] at passes
  obtain ⟨layout, layoutEq, graph, found, lacked⟩ := passes
  exact ⟨schema, layout, graph, built, layoutEq, eq_ok_of_toOption found, lacked⟩

/-- The server has the one attribute whose tag is its own. -/
theorem required_attributes_present_of_server :
    let document := "<server id='a' x:host='b' xmlns='c'/>"
    ∃ schema layout graph start field, server.build = .ok schema ∧
      schema.layout? "Server" = some layout ∧
      (Reader.mk schema {}).readAs "Server" document none = .ok graph ∧
      field ∈ layout.attributeFields ∧ field.declared.isRequired = true ∧
      OwnsTag layout true field ∧ layout.Sole field ∧ layout.contentField? ≠ some field ∧
      RequirementMet ⟨schema, true, none⟩ layout true start field (graph.root.get? field.name) := by
  intro document
  have passes : server.build.toOption.any (fun schema =>
      (schema.layout? "Server").any fun layout =>
        ((Reader.mk schema {}).readAs "Server" document none).toOption.any fun graph =>
          graph.root.className = "Server" ∧ graph.root.id.value = 0 ∧
          layout.attributeFields.any fun field =>
            field.declared.isRequired = true ∧ OwnsTag layout true field ∧ layout.Sole field ∧
              layout.contentField? ≠ some field) = true := by
    decide +kernel
  obtain ⟨schema, built, passes⟩ := Schema.exists_built passes
  simp only [Option.any_eq_true, List.any_eq_true, decide_eq_true_eq] at passes
  obtain ⟨layout, layoutEq, graph, found, classEq, idEq, field, member, isRequired, owns, sole,
    notContent⟩ := passes
  have reads := eq_ok_of_toOption found
  have present := required_attributes_present (Reader.mk schema {}) built rfl "Server" document none
    reads
  simp only [ite_self] at present
  obtain ⟨tag, inside, _, met⟩ := present
  obtain ⟨start, layout', isAt, met⟩ := met graph.root (.self _)
  obtain rfl := isAt.layout_unique (by rw [classEq]; exact layoutEq)
  have rootMet := met field member isRequired
  rw [idEq] at rootMet
  exact ⟨schema, layout, graph, start, field, built, layoutEq, reads, member, isRequired, owns, sole,
    notContent, rootMet⟩

end Trellis.Reading
