import Trellis.Proofs.Writing.Values

/-!
Fields that are written and read again.

What a field is written as stands in front of the other fields' elements.  Reading the children of
an entity goes on behind it with the field set to an equal value, and with nothing else changed.
-/

namespace Trellis.Reading

open Trellis.Graph (Entity Unequal Value textElement writeEntries)
open Markup (Body Content Tag isName)
open Schema (Collection Field FieldKind ItemType MapEncoding ScalarType TaggedField)

variable {context : Context} {field : TaggedField} {value : Value}

/-! ### Values set -/

structure Sets (field : TaggedField) (value : Value) (before after : FieldValues) : Prop where
  others : ∀ name, name ≠ field.name → after.get? name = before.get? name
  here : ∃ read, after.get? field.name = some read ∧ read.equal value = true

theorem Sets.set {read : Value} (same : read.equal value = true) (values : FieldValues) :
    Sets field value values (values.set field.name read) where
  others := by
    intro name different
    exact OrderedMap.get?_set_of_ne values read (Ne.symm different)
  here := ⟨read, OrderedMap.get?_set_self values field.name read, same⟩

/-- The value can be written in its field, and the entities in it are read from what they are
written as. -/
structure FieldReady (context : Context) (field : TaggedField) (value : Value) : Prop where
  fits : value.Fits field.declared.kind
  exact : ∀ type ∈ field.declared.kind.usedType?, type.isExact = true
  trimmed : field.declared.trims = true → value.Trimmed
  tags : ∀ tag ∈ field.writtenTags, isName tag = true
  keys : field.declared.kind = .map .inline → ∀ entries, value = .map entries →
    ∀ entry ∈ entries, isName entry.1 = true
  filled : field.declared.isUnwrapped = true → ∀ kind, value ≠ .collection kind []
  inside : ∀ inner, value.Holds inner → EntityReads context inner

theorem FieldReady.tag_named (ready : FieldReady context field value)
    (whole : field.declared.isUnwrapped = false) : isName field.tag = true :=
  ready.tags field.tag (TaggedField.tag_mem_writtenTags whole)

theorem FieldReady.items (ready : FieldReady context field value) {collection : Collection}
    {type : ItemType} {wrapped : Bool} (kind : field.declared.kind = .many collection type wrapped) :
    ∃ items, value = .collection collection items ∧ (∀ item ∈ items, ItemReads context field type item) ∧
      (collection = .set → Unequal items) := by
  have fits := ready.fits
  rw [kind] at fits
  obtain ⟨areItems, unequal⟩ := fits
  rename_i items
  have named : isName field.itemTag = true :=
    ready.tags field.itemTag (TaggedField.itemTag_mem_writtenTags kind)
  refine ⟨items, rfl, ?_, unequal⟩
  intro item member
  have isItem := areItems item member
  cases type with
  | scalar type =>
      have exact : type.isExact = true := by
        apply ready.exact
        rw [kind]
        rfl
      exact itemReads_scalar field exact isItem (fun trims => ready.trimmed trims item member) named
  | entity target =>
      cases item <;> first | exact isItem.elim | skip
      rename_i inner
      change inner.className = target at isItem
      rw [← isItem]
      exact itemReads_entity field (ready.inside inner (.item member (.entity inner))) named

def SetFromElement (context : Context) (field : TaggedField) (value : Value) : Prop :=
  ReadsElement field.tag (fun rest => value.write context.schema field rest) fun tag content =>
    ∀ frame values, Yields (context.readField frame values field tag content) (Sets field value values)

/-! ### Fields of one element -/

private theorem setFromElement_scalar (ready : FieldReady context field value)
    (named : isName field.tag = true) {type : ScalarType}
    (kind : field.declared.kind = .scalar type) :
    SetFromElement context field value := by
  have exact : type.isExact = true := by
    apply ready.exact
    rw [kind]
    rfl
  have typed : value.HasType type := by
    have fits := ready.fits
    rw [kind] at fits
    exact fits
  have isExact := isExact_of_hasType exact typed
  have trimmed : field.declared.trims = true → value.IsTrim := by
    intro trims
    have whole := ready.trimmed trims
    cases isExact <;> exact whole
  obtain ⟨attributes, text, inside, formed, writes, reads⟩ :=
    readsElement_scalar context field.declared exact typed trimmed named
  refine ⟨attributes, text, inside, formed, ?_, ?_⟩
  · intro rest
    have writesField : value.write context.schema field rest =
        value.writtenText?.map (textElement field.tag · rest) := by
      cases isExact <;> simp only [Value.write, kind]
    exact writesField.trans (writes rest)
  · intro position content holds frame values
    simp only [Context.readField, Context.field, kind]
    apply Yields.afterLift (reads position content holds)
    apply Yields.afterModify
    exact .pure (.set (equal_self_of_hasType exact typed) values)

private theorem setFromElement_one (ready : FieldReady context field value)
    (named : isName field.tag = true) {target : String} (kind : field.declared.kind = .one target) :
    SetFromElement context field value := by
  have fits := ready.fits
  rw [kind] at fits
  cases value <;> first | exact fits.elim | skip
  rename_i inner
  change inner.className = target at fits
  obtain ⟨attributes, text, inside, formed, writes, reads⟩ :=
    ready.inside inner (.entity inner) field.tag named
  refine ⟨attributes, text, inside, formed, ?_, ?_⟩
  · intro rest
    simp only [Value.write, kind]
    exact writes rest
  · intro position content holds frame values
    simp only [Context.readField, Context.field, kind]
    rw [← fits]
    apply (reads position content holds false).bind
    intro read same
    exact .pure (.set (Value.equal_iff.2 (.entity same)) values)

private theorem writeEntries_wellFormed {encoding : MapEncoding} {itemTag : String}
    {entries : List (String × String)}
    (keys : encoding = .inline → ∀ entry ∈ entries, isName entry.1 = true)
    (tag : encoding = .explode → isName itemTag = true) :
    (writeEntries encoding itemTag entries).WellFormed := by
  have key : isName "key" = true := by decide +kernel
  have value : isName "value" = true := by decide +kernel
  induction entries with
  | nil => trivial
  | cons entry others ih =>
      have restFormed := ih fun isInline other member => keys isInline other (List.mem_cons_of_mem _ member)
      cases encoding with
      | inline => exact wellFormed_plain (keys rfl entry List.mem_cons_self) trivial restFormed
      | explode =>
          have partsFormed :
              (textElement "key" entry.1 (textElement "value" entry.2 .stop)).WellFormed :=
            wellFormed_plain key trivial (wellFormed_plain value trivial trivial)
          exact wellFormed_plain (tag rfl) partsFormed restFormed

private theorem setFromElement_map (ready : FieldReady context field value)
    (named : isName field.tag = true) {encoding : MapEncoding}
    (kind : field.declared.kind = .map encoding) : SetFromElement context field value := by
  have fits := ready.fits
  rw [kind] at fits
  cases value <;> first | exact fits.elim | skip
  rename_i entries
  have kept : ∀ entry ∈ entries, fieldText field.declared entry.2 = entry.2 := by
    intro entry member
    unfold fieldText
    split
    · rename_i trims
      exact ready.trimmed trims entry member
    · rfl
  refine ⟨[], "", writeEntries encoding field.itemTag entries, wellFormed_plain named ?_ trivial, ?_, ?_⟩
  · apply writeEntries_wellFormed
    · intro isInline
      rw [isInline] at kind
      exact ready.keys kind entries rfl
    · intro isExploded
      rw [isExploded] at kind
      apply ready.tags
      rw [TaggedField.writtenTags, kind]
      exact List.mem_cons_of_mem _ List.mem_cons_self
  · intro rest
    simp only [Value.write, kind]
  · intro position content holds frame values
    simp only [Context.readField, Context.field, kind]
    apply Yields.afterModify
    have distinct : OrderedMap.DistinctKeys ([] ++ entries) := fits
    apply (readEntries_written frame.id field encoding kept distinct (shows_of_holds holds)).bind
    intro read readEq
    rw [readEq]
    exact .pure (.set (Value.equal_iff.2 (.map fun _ => rfl)) values)

private theorem recordCollection_bind {α : Type} {read : Read α} {property : α → Prop} {id : EntityId}
    {name : String} {type : ItemType} {location : Location} (holds : Yields read property) :
    Yields (recordCollection id name type location >>= fun _ => read) property := by
  unfold recordCollection
  split
  · exact holds.afterModify
  · exact holds

private theorem setFromElement_wrapped (ready : FieldReady context field value)
    (named : isName field.tag = true) {collection : Collection} {type : ItemType}
    (kind : field.declared.kind = .many collection type true) :
    SetFromElement context field value := by
  obtain ⟨items, rfl, each, unequal⟩ := ready.items kind
  obtain ⟨body, writes, row⟩ := writeItems_row each .stop
  refine ⟨[], "", body, wellFormed_plain named (row.wellFormed trivial) trivial, ?_, ?_⟩
  · intro rest
    simp only [Value.write, kind, writes]
    rfl
  · intro position content holds frame values
    simp only [Context.readField, Context.field, kind]
    apply recordCollection_bind
    apply (readItems_row row frame.id collection .nil unequal (shows_of_holds holds)).bind
    intro holder found
    obtain ⟨all, rfl, same⟩ := found
    exact .pure (.set (Value.equal_iff.2 (.collection same)) values)

private theorem setFromElement (ready : FieldReady context field value)
    (whole : field.declared.isUnwrapped = false) : SetFromElement context field value := by
  have named := ready.tag_named whole
  cases kind : field.declared.kind with
  | scalar type => exact setFromElement_scalar ready named kind
  | one target => exact setFromElement_one ready named kind
  | many collection type wrapped =>
      cases wrapped with
      | true => exact setFromElement_wrapped ready named kind
      | false =>
          rw [Field.isUnwrapped_of_kind kind] at whole
          cases whole
  | map encoding => exact setFromElement_map ready named kind

/-! ### Children -/

private theorem readChildren_element {frame : Frame} {tag : Tag}
    (route : frame.layout.elementField? tag.name = some field) (values : FieldValues)
    (seen : List String) (inside rest : Content) :
    context.readChildren frame values seen (.element tag inside rest) = (do
      let seen ← context.takeTag field seen tag
      let values ← context.readField frame values field tag inside
      context.readChildren frame values seen rest) := by
  rw [Context.readChildren]
  simp only [route]
  rfl

def RoutesTo (frame : Frame) (field : TaggedField) : Prop :=
  ∀ name ∈ field.matchingNames, frame.layout.elementField? name = some field

def Takes (field : TaggedField) (before after : List String) : Prop :=
  ∀ tag ∈ after, tag ∈ before ∨ (tag = field.tag ∧ field.declared.isUnwrapped = false)

/-- Behind what the field is written as, reading the children goes on with the field set. -/
def GoesOn (context : Context) (field : TaggedField) (value : Value) (rest body : Body) : Prop :=
  ∀ (frame : Frame) (values : FieldValues) (seen : List String) (content : Content)
    (property : FieldValues → Prop),
    RoutesTo frame field → content.Shows body →
    (field.declared.isUnwrapped = true → values.get? field.name = none) →
    (field.declared.isUnwrapped = false → field.tag ∉ seen) →
    (∀ values' seen' after, after.Shows rest → Sets field value values values' → Takes field seen seen' →
      Yields (context.readChildren frame values' seen' after) property) →
    Yields (context.readChildren frame values seen content) property

def FieldReads (context : Context) (field : TaggedField) (value : Value) : Prop :=
  ∀ rest : Body, ∃ body, value.write context.schema field rest = some body ∧
    (rest.WellFormed → body.WellFormed) ∧ GoesOn context field value rest body

private theorem fieldReads_element (ready : FieldReady context field value)
    (whole : field.declared.isUnwrapped = false) : FieldReads context field value := by
  intro rest
  obtain ⟨attributes, text, inside, formed, writes, reads⟩ := setFromElement ready whole
  refine ⟨_, writes rest, wellFormed_before formed, ?_⟩
  intro frame values seen content property routes showsBody _ untaken next
  obtain ⟨position, inner, after, rfl, holds, showsRest⟩ := showsBody.element_inv
  have route : frame.layout.elementField? field.tag = some field :=
    routes field.tag (TaggedField.tag_mem_matchingNames whole)
  rw [readChildren_element route]
  have takes : context.takeTag field seen ⟨field.tag, attributes, position⟩ = .ok (field.tag :: seen) := by
    have absent : seen.contains field.tag = false := by
      simpa using untaken whole
    simp only [Context.takeTag, whole, absent, Bool.false_eq_true, if_false]
  apply Yields.afterLift takes
  apply (reads position inner holds frame values).bind
  intro values' sets
  apply next values' (field.tag :: seen) after showsRest sets
  intro tag member
  rcases List.mem_cons.1 member with here | before
  · exact .inr ⟨here, whole⟩
  · exact .inl before

/-! ### Items among the children -/

private theorem unwrapped_item {collection : Collection} {type : ItemType}
    (kind : field.declared.kind = .many collection type false) (frame : Frame) {values : FieldValues}
    {read written : List Value}
    (here : (values.get? field.name).getD (.collection collection []) = .collection collection read)
    (same : SameItems read written) {item : Value}
    (unequal : collection = .set → Unequal (written ++ [item])) {tag : Tag} {inner : Content}
    (reads : Yields (context.item field type tag inner (context.childrenIn inner)) fun read =>
      read.equal item = true) :
    Yields (context.readField frame values field tag inner) fun values' =>
      ∃ value, value.equal item = true ∧
        values' = values.set field.name (.collection collection (read ++ [value])) := by
  simp only [Context.readField, Context.field, kind]
  apply reads.bind
  intro value valueSame
  apply recordCollection_bind
  rw [here]
  apply (addItem_yields frame.id field type tag same valueSame unequal).bind
  intro holder holderEq
  exact .pure ⟨value, valueSame, by rw [holderEq]⟩

/-- What an unwrapped field has been given when some of its items have been read. -/
structure Holding (field : TaggedField) (collection : Collection) (before : FieldValues)
    (read : List Value) (values : FieldValues) : Prop where
  others : ∀ name, name ≠ field.name → values.get? name = before.get? name
  here : (values.get? field.name).getD (.collection collection []) = .collection collection read

theorem Holding.push {collection : Collection} {before : FieldValues} {read : List Value}
    {values : FieldValues} (holding : Holding field collection before read values) (value : Value) :
    Holding field collection before (read ++ [value])
      (values.set field.name (.collection collection (read ++ [value]))) where
  others := by
    intro name different
    rw [OrderedMap.get?_set_of_ne values _ (Ne.symm different)]
    exact holding.others name different
  here := by
    rw [OrderedMap.get?_set_self]
    rfl

private theorem readChildren_row {collection : Collection} {type : ItemType}
    (kind : field.declared.kind = .many collection type false) {rest body : Body} {items : List Value}
    (row : ItemRow context field type rest items body) {frame : Frame} (routes : RoutesTo frame field)
    {before : FieldValues} {all : List Value} (unequal : collection = .set → Unequal all)
    {seen : List String} {property : FieldValues → Prop}
    (next : ∀ values after, after.Shows rest → Sets field (.collection collection all) before values →
      Yields (context.readChildren frame values seen after) property)
    {values : FieldValues} {read written : List Value} (split : all = written ++ items)
    (holding : Holding field collection before read values)
    (started : items = [] → values.get? field.name = some (.collection collection read))
    (same : SameItems read written) {content : Content} (showsBody : content.Shows body) :
    Yields (context.readChildren frame values seen content) property := by
  induction row generalizing values read written content with
  | nil =>
      rw [List.append_nil] at split
      rw [split] at next
      apply next values content showsBody
      exact ⟨holding.others, _, started rfl, Value.equal_iff.2 (.collection same)⟩
  | cons formed reads row ih =>
      rename_i item others attributes text inside body
      obtain ⟨position, inner, after, rfl, holds, showsRest⟩ := showsBody.element_inv
      have unwrapped := Field.isUnwrapped_of_kind kind
      have route : frame.layout.elementField? field.itemTag = some field :=
        routes field.itemTag (TaggedField.itemTag_mem_matchingNames unwrapped)
      have takes : context.takeTag field seen ⟨field.itemTag, attributes, position⟩ = .ok seen := by
        simp only [Context.takeTag, unwrapped, if_true]
      have unequalHere : collection = .set → Unequal (written ++ [item]) := by
        intro isSet
        apply unequal_first
        rw [← split]
        exact unequal isSet
      rw [readChildren_element route]
      apply Yields.afterLift takes
      apply (unwrapped_item kind frame holding.here same unequalHere (reads position inner holds)).bind
      intro values' found
      obtain ⟨value, valueSame, rfl⟩ := found
      rw [List.append_cons] at split
      have bound := OrderedMap.get?_set_self values field.name
        (.collection collection (read ++ [value]))
      exact ih split (holding.push value) (fun _ => bound) (same.push valueSame) showsRest

private theorem fieldReads_unwrapped (ready : FieldReady context field value) {collection : Collection}
    {type : ItemType} (kind : field.declared.kind = .many collection type false) :
    FieldReads context field value := by
  obtain ⟨items, rfl, each, unequal⟩ := ready.items kind
  have unwrapped := Field.isUnwrapped_of_kind kind
  intro rest
  obtain ⟨body, writes, row⟩ := writeItems_row each rest
  refine ⟨body, ?_, row.wellFormed, ?_⟩
  · simp only [Value.write, kind]
    exact writes
  · intro frame values seen content property routes showsBody unbound _ next
    have nothingYet := unbound unwrapped
    apply readChildren_row kind row routes unequal _ rfl _ _ .nil showsBody
    · exact values
    · intro values' after showsRest sets
      apply next values' seen after showsRest sets
      intro tag member
      exact .inl member
    · constructor
      · intro name _
        rfl
      · rw [nothingYet]
        rfl
    · intro empty
      rw [empty] at ready
      exact absurd rfl (ready.filled unwrapped collection)

theorem fieldReads (ready : FieldReady context field value) : FieldReads context field value := by
  cases unwrapped : field.declared.isUnwrapped with
  | false => exact fieldReads_element ready unwrapped
  | true =>
      obtain ⟨collection, type, kind⟩ := Field.kind_of_isUnwrapped unwrapped
      exact fieldReads_unwrapped ready kind

end Trellis.Reading
