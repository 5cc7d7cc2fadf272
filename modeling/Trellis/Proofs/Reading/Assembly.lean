import Trellis.Proofs.Reading.Origins

/-!
How the fields of an entity come together.

An entity sets its fields three times over: from the defaults, in the order of its layout, from the
attributes, in the order of its start tag, and from the children or, if there is a content field, from
all the content.  What is set anew stays where it was, so that each field stands where it has been set
first, with what has been read for it last.
-/

namespace Trellis.Reading

open Trellis.Graph (Entity IsDefault Tree Value)
open Markup (Content Tag)
open Schema (Collection Declarations ItemType Layout MapEncoding ScalarType TaggedField)

/-! ### Statements -/

/-- The names that defaults set: those of scalars that have one, except for trees. -/
def defaultNames (fields : List TaggedField) : List String :=
  (fields.filter fun field =>
    field.declared.default.isSome && field.declared.scalarType?.any (· ≠ .tree)).map (·.name)

def attributeNames (layout : Layout) (atRoot : Bool) (attributes : List (String × String)) :
    List String :=
  ((attributes.filter (isOwnAttribute atRoot ·.1)).filterMap (layout.attributeField? ·.1)).map (·.name)

def childNames (layout : Layout) (inside : Content) : List String :=
  (inside.elements.filterMap (layout.elementField? ·.1.name)).map (·.name)

/-- The names that the content sets: that of the content field, if there is one, else those that
children set. -/
def contentNames (layout : Layout) (inside : Content) : List String :=
  match layout.contentField? with
  | some field => [field.name]
  | none => childNames layout inside

/-- The element that a field takes in as a whole: that of the entity for the content field, else the
first child that belongs to the field. -/
def givenElement? (layout : Layout) (start : Start) (field : TaggedField) : Option (Tag × Content) :=
  if layout.contentField? = some field then some (start.tag, start.inside)
  else (childrenOf layout field start.inside).head?

/-- The text that a scalar is read from, and where it stands.  The content field has all the text of
the entity, even if there is an attribute for it as well. -/
def givenText? (layout : Layout) (atRoot : Bool) (start : Start) (field : TaggedField) :
    Option (String × Position) :=
  if layout.contentField? = some field then some (start.inside.ownText, start.tag.position)
  else
    let attribute? := (attributesOf layout atRoot field start.tag.attributes).getLast?
    let child? := (childrenOf layout field start.inside).head?
    (attribute?.map fun pair => (pair.2, start.tag.position)).or
      (child?.map fun child => (child.2.ownText, child.1.position))

/-- A scalar that is no tree is what its text is read as, or else what its default is read as in a
lenient read; without either it is not set. -/
structure ScalarHeld (context : Context) (field : TaggedField) (type : ScalarType)
    (text? : Option (String × Position)) (location : Location) (value : Option Value) : Prop where
  ofText : ∀ text position, text? = some (text, position) →
    ∃ read, coerce context.strict field.declared type text (context.locate position) = .ok read ∧
      value = some read
  ofDefault : text? = none → ∀ text, field.declared.default = some text →
    ∃ read, coerce false field.declared type text location = .ok read ∧ value = some read
  unset : text? = none → field.declared.default = none → value = none

structure TreeHeld (context : Context) (element? : Option (Tag × Content)) (value : Option Value) :
    Prop where
  ofElement : ∀ element, element? = some element →
    ∃ tree, context.treeOf element.1 element.2 = .ok tree ∧ value = some (.tree tree)
  unset : element? = none → value = none

/-- The fields of an entity stand in the order in which they are first set, each of them once, and
hold what has been given for them. -/
structure Assembled (context : Context) (layout : Layout) (atRoot : Bool) (start : Start)
    (entity : Entity) : Prop where
  keys_eq : entity.fields.keys = (defaultNames layout.fields ++
    attributeNames layout atRoot start.tag.attributes ++
    contentNames layout start.inside).eraseDups
  distinct : entity.fields.DistinctKeys
  scalars : ∀ field ∈ layout.fields, ∀ type, field.declared.scalarType? = some type → type ≠ .tree →
    ScalarHeld context field type (givenText? layout atRoot start field)
      (context.locate start.tag.position) (entity.get? field.name)
  trees : ∀ field ∈ layout.fields, field.declared.scalarType? = some .tree →
    TreeHeld context (givenElement? layout start field) (entity.get? field.name)
  others : ∀ field ∈ layout.fields, field.declared.scalarType? = none →
    Gathered context field none (childrenOf layout field start.inside) (entity.get? field.name)

/-! ### The order of the fields -/

abbrev FirstSetAs (values : FieldValues) (names : List String) : Prop :=
  values.keys = names.eraseDups

section Order

variable {context : Context} {layout : Layout} {frame : Frame} {values values' : FieldValues}
  {names : List String} {session session' : Session} {tag : Tag} {inside : Content} {atRoot : Bool}

private theorem withDefault_firstSetAs {location : Location} {field : TaggedField}
    (firstSet : FirstSetAs values names) (read : withDefault location values field = .ok values') :
    FirstSetAs values' (names ++ defaultNames [field]) := by
  unfold withDefault at read
  split at read
  · rename_i text type defaultEq typeEq
    split at read
    · rename_i isTree
      cases read
      have noName : defaultNames [field] = [] := by
        simp [defaultNames, typeEq, isTree]
      rw [noName, List.append_nil]
      exact firstSet
    · rename_i noTree
      have oneName : defaultNames [field] = [field.name] := by
        simp [defaultNames, defaultEq, typeEq, noTree]
      cases coerceEq : coerce false field.declared type text location with
      | error error =>
          rw [coerceEq] at read
          cases read
      | ok value =>
          rw [coerceEq] at read
          cases read
          rw [oneName]
          exact OrderedMap.keys_set_of_eraseDups firstSet _ _
  · rename_i missing
    cases read
    have noName : defaultNames [field] = [] := by
      cases defaultEq : field.declared.default with
      | none => simp [defaultNames, defaultEq]
      | some text =>
          cases typeEq : field.declared.scalarType? with
          | none => simp [defaultNames, typeEq]
          | some type => exact absurd typeEq (missing text type defaultEq)
    rw [noName, List.append_nil]
    exact firstSet

private theorem defaultNames_cons (field : TaggedField) (rest : List TaggedField) :
    defaultNames (field :: rest) = defaultNames [field] ++ defaultNames rest := by
  rw [← List.singleton_append, defaultNames, List.filter_append, List.map_append]
  rfl

private theorem defaults_firstSetAs {location : Location} {fields : List TaggedField}
    (firstSet : FirstSetAs values names)
    (read : fields.foldlM (withDefault location) values = .ok values') :
    FirstSetAs values' (names ++ defaultNames fields) := by
  induction fields generalizing values names with
  | nil =>
      cases read
      rw [defaultNames, List.filter_nil, List.map_nil, List.append_nil]
      exact firstSet
  | cons field rest ih =>
      rw [List.foldlM_cons] at read
      obtain ⟨between, stepEq, goesOn⟩ := eq_ok_of_bind read
      rw [defaultNames_cons, ← List.append_assoc]
      exact ih (withDefault_firstSetAs firstSet stepEq) goesOn

private theorem attributeNames_cons (pair : String × String) (rest : List (String × String)) :
    attributeNames layout atRoot (pair :: rest) =
      attributeNames layout atRoot [pair] ++ attributeNames layout atRoot rest := by
  rw [← List.singleton_append, attributeNames, List.filter_append, List.filterMap_append,
    List.map_append]
  rfl

private theorem readAttributes_firstSetAs (placed : frame.layout.Placed)
    {attributes : List (String × String)} (firstSet : FirstSetAs values names)
    (runs : context.readAttributes frame tag atRoot values attributes session = .ok (values', session')) :
    FirstSetAs values' (names ++ attributeNames frame.layout atRoot attributes) := by
  induction attributes generalizing values names session with
  | nil =>
      cases runs
      rw [attributeNames, List.filter_nil, List.filterMap_nil, List.map_nil, List.append_nil]
      exact firstSet
  | cons pair rest ih =>
      obtain ⟨between, middle, goesOn, here⟩ := readAttributes_cons_eq_ok runs
      rw [attributeNames_cons, ← List.append_assoc]
      refine ih ?_ goesOn
      rcases here with ⟨other, type, value, own, routeEq, _, _, rfl⟩ | ⟨rfl, unset⟩
      · have oneName : attributeNames frame.layout atRoot [pair] = [other.name] := by
          simp [attributeNames, own, routeEq]
        rw [oneName]
        exact OrderedMap.keys_set_of_eraseDups firstSet _ _
      · have noName : attributeNames frame.layout atRoot [pair] = [] := by
          cases own : isOwnAttribute atRoot pair.1 with
          | false => simp [attributeNames, own]
          | true =>
              cases routeEq : frame.layout.attributeField? pair.1 with
              | none => simp [attributeNames, own, routeEq]
              | some other =>
                  have isAttribute := attributeField?_mem routeEq
                  obtain ⟨type, typeEq⟩ := placed.scalarType? isAttribute.1 (.inl isAttribute.2)
                  exact absurd typeEq (unset other type own routeEq)
        rw [noName, List.append_nil]
        exact firstSet

private theorem childNames_element (layout : Layout) (tag : Tag) (inside rest : Content) :
    childNames layout (.element tag inside rest) =
      ((layout.elementField? tag.name).map (·.name)).toList ++ childNames layout rest := by
  rw [childNames, Content.elements, List.filterMap_cons]
  cases layout.elementField? tag.name <;> rfl

private theorem readChildren_firstSetAs {seen : List String} {content : Content}
    (firstSet : FirstSetAs values names)
    (runs : context.readChildren frame values seen content session = .ok (values', session')) :
    FirstSetAs values' (names ++ childNames frame.layout content) := by
  induction content generalizing values names seen session with
  | closed encoding =>
      cases runs
      rw [childNames, Content.elements, List.filterMap_nil, List.map_nil, List.append_nil]
      exact firstSet
  | broken ending => cases runs
  | text position text rest ih =>
      obtain ⟨_, _, goesOn⟩ := Read.lift_bind_eq_ok runs
      exact ih firstSet goesOn
  | element tag inside rest _ ih =>
      simp only [Context.readChildren] at runs
      rw [childNames_element, ← List.append_assoc]
      cases routeEq : frame.layout.elementField? tag.name with
      | none =>
          simp only [routeEq] at runs
          obtain ⟨_, _, goesOn⟩ := Read.lift_bind_eq_ok runs
          rw [Option.map_none, Option.toList_none, List.append_nil]
          exact ih firstSet goesOn
      | some field =>
          simp only [routeEq] at runs
          obtain ⟨_, _, goesOn⟩ := Read.lift_bind_eq_ok runs
          obtain ⟨between, _, fieldRun, goesOn⟩ := Read.bind_eq_ok goesOn
          obtain ⟨value, rfl⟩ := readField_eq_set fieldRun
          exact ih (OrderedMap.keys_set_of_eraseDups firstSet _ _) goesOn

private theorem entity_firstSetAs (placed : frame.layout.Placed) {className : String} {begun : Session}
    (begins : context.beginEntity className tag atRoot session = .ok ((frame, values), begun))
    (goesOn : (match frame.layout.contentField? with
      | some field => context.readContentField frame values field tag inside
      | none => context.childrenIn inside frame values) begun = .ok (values', session')) :
    FirstSetAs values' (defaultNames frame.layout.fields ++
      attributeNames frame.layout atRoot tag.attributes ++ contentNames frame.layout inside) := by
  obtain ⟨resolved, _, _, rfl, _, defaults, defaultsEq, attributesEq⟩ := beginEntity_eq_ok begins
  have nothingYet : FirstSetAs [] [] := rfl
  have withDefaults := defaults_firstSetAs nothingYet defaultsEq
  rw [List.nil_append] at withDefaults
  have started := readAttributes_firstSetAs placed withDefaults attributesEq
  unfold contentNames
  simp only at placed goesOn started ⊢
  cases contentEq : resolved.layout.contentField? with
  | some field =>
      simp only [contentEq] at goesOn
      obtain ⟨type, typeEq⟩ := placed.content_scalarType? contentEq
      obtain ⟨read, _, rfl⟩ := readContentField_eq_ok typeEq goesOn
      exact OrderedMap.keys_set_of_eraseDups started _ _
  | none =>
      simp only [contentEq] at goesOn
      exact readChildren_firstSetAs started goesOn

end Order

private theorem nodup_eraseDups (names : List String) : names.eraseDups.Nodup := by
  induction names using List.reverseRecOn with
  | nil => exact List.nodup_nil
  | append_singleton names name ih =>
      rw [OrderedMap.eraseDups_concat]
      split
      · exact ih
      · rename_i unknown
        refine List.nodup_append.2 ⟨ih, List.nodup_singleton name, ?_⟩
        intro earlier isEarlier here isHere
        rw [List.mem_singleton.1 isHere]
        rintro rfl
        exact unknown (List.mem_eraseDups.1 isEarlier)

/-! ### The values of the fields -/

section Values

variable {context : Context} {layout : Layout} {frame : Frame} {field : TaggedField}
  {values values' : FieldValues} {session session' : Session} {tag : Tag} {inside : Content}
  {atRoot : Bool} {className : String}

private theorem coerce_elsewhere {strict : Bool} {declared : Schema.Field} {type : ScalarType}
    {raw : String}
    {location : Location} {value : Value}
    (read : coerce strict declared type raw location = .ok value) (other : Location) :
    coerce strict declared type raw other = .ok value := by
  unfold coerce at read ⊢
  cases found : (scalarOf? declared type (fieldText declared raw)).or
      (if strict = true then none else fallback? type) with
  | none =>
      simp only [found] at read
      cases read
  | some value =>
      simp only [found] at read ⊢
      exact read

private theorem readAttributes_last (sole : frame.layout.Sole field) {type : ScalarType}
    (typeEq : field.declared.scalarType? = some type) {attributes : List (String × String)}
    (runs : context.readAttributes frame tag atRoot values attributes session = .ok (values', session'))
    {pair : String × String}
    (last : (attributesOf frame.layout atRoot field attributes).getLast? = some pair) :
    ∃ read, coerce context.strict field.declared type pair.2 frame.location = .ok read ∧
      values'.get? field.name = some read := by
  induction attributes generalizing values session with
  | nil => cases last
  | cons first rest ih =>
      obtain ⟨between, middle, goesOn, here⟩ := readAttributes_cons_eq_ok runs
      have splitEq : attributesOf frame.layout atRoot field (first :: rest) =
          attributesOf frame.layout atRoot field [first] ++
            attributesOf frame.layout atRoot field rest := by
        rw [← List.singleton_append, attributesOf, List.filter_append]
        rfl
      rw [splitEq, List.getLast?_append] at last
      cases restLast : (attributesOf frame.layout atRoot field rest).getLast? with
      | some later =>
          rw [restLast, Option.some_or] at last
          exact ih goesOn (restLast.trans last)
      | none =>
          rw [restLast, Option.none_or] at last
          have belongs : pair ∈ attributesOf frame.layout atRoot field [first] :=
            List.mem_of_getLast? last
          obtain ⟨isFirst, own, routeEq⟩ := mem_attributesOf_iff.1 belongs
          cases List.mem_singleton.1 isFirst
          rw [readAttributes_same sole (List.getLast?_eq_none_iff.1 restLast) goesOn]
          rcases here with ⟨other, otherType, value, _, otherEq, otherTypeEq, coerceEq, rfl⟩ | ⟨_, unset⟩
          · cases Option.some.inj (routeEq.symm.trans otherEq)
            cases Option.some.inj (typeEq.symm.trans otherTypeEq)
            exact ⟨value, coerceEq, OrderedMap.get?_set_self _ _ _⟩
          · exact absurd typeEq (unset field type own routeEq)

structure StartHeld (context : Context) (layout : Layout) (atRoot : Bool) (tag : Tag)
    (field : TaggedField) (value : Option Value) : Prop where
  ofAttribute : ∀ pair, (attributesOf layout atRoot field tag.attributes).getLast? = some pair →
    ∀ type, field.declared.scalarType? = some type →
      ∃ read, coerce context.strict field.declared type pair.2 (context.locate tag.position) =
        .ok read ∧ value = some read
  ofDefault : attributesOf layout atRoot field tag.attributes = [] →
    ∀ text, field.declared.default = some text →
      ∀ type, field.declared.scalarType? = some type → type ≠ .tree →
        ∃ read, coerce false field.declared type text (context.locate tag.position) = .ok read ∧
          value = some read
  isDefault : attributesOf layout atRoot field tag.attributes = [] →
    ∀ read, value = some read → IsDefault field.declared read

private theorem startHeld_of_begins (sole : frame.layout.Sole field)
    (member : field ∈ frame.layout.fields)
    (begins : context.beginEntity className tag atRoot session = .ok ((frame, values), session')) :
    StartHeld context frame.layout atRoot tag field (values.get? field.name) := by
  obtain ⟨resolved, _, _, rfl, _, defaults, defaultsEq, attributesEq⟩ := beginEntity_eq_ok begins
  have isDefault := defaultValues_get? sole defaultsEq
  refine ⟨?_, ?_, ?_⟩
  · exact fun pair last type typeEq => readAttributes_last sole typeEq attributesEq last
  · intro noAttribute text defaultEq type typeEq noTree
    rw [readAttributes_same sole noAttribute attributesEq]
    have firstSet : FirstSetAs defaults ([] ++ defaultNames resolved.layout.fields) :=
      defaults_firstSetAs rfl defaultsEq
    have named : field.name ∈ defaultNames resolved.layout.fields := by
      refine List.mem_map_of_mem (List.mem_filter.2 ⟨member, ?_⟩)
      simp [defaultEq, typeEq, noTree]
    cases held : defaults.get? field.name with
    | none =>
        have absent := OrderedMap.get?_eq_none_iff.1 held
        rw [firstSet, List.nil_append, List.mem_eraseDups] at absent
        exact absurd named absent
    | some read =>
        obtain ⟨text', type', location, defaultEq', typeEq', coerceEq⟩ := isDefault read held
        cases Option.some.inj (defaultEq.symm.trans defaultEq')
        cases Option.some.inj (typeEq.symm.trans typeEq')
        exact ⟨read, coerce_elsewhere coerceEq _, rfl⟩
  · intro noAttribute
    rw [readAttributes_same sole noAttribute attributesEq]
    exact isDefault

private theorem attributesOf_eq_nil {attributes : List (String × String)}
    (noAttribute : field.declared.isAttribute = false) :
    attributesOf layout atRoot field attributes = [] := by
  refine List.eq_nil_iff_forall_not_mem.2 ?_
  intro pair belongs
  have isAttribute := (attributeField?_mem (mem_attributesOf_iff.1 belongs).2.2).2
  rw [noAttribute] at isAttribute
  cases isAttribute

private theorem noAttribute_of_placed (placed : layout.Placed) (member : field ∈ layout.fields)
    (textless : ∀ type, field.declared.scalarType? = some type → type = .tree) :
    field.declared.isAttribute = false := by
  have fits := placed.fits field member
  unfold Schema.Field.fitsItsPlace at fits
  cases isAttribute : field.declared.isAttribute with
  | false => rfl
  | true =>
      rw [isAttribute, Bool.true_or, if_pos rfl] at fits
      cases typeEq : field.declared.scalarType? with
      | none =>
          rw [typeEq] at fits
          cases fits
      | some type =>
          rw [typeEq, textless type typeEq] at fits
          simp [Schema.ScalarType.isTextual] at fits

theorem StartHeld.eq_none {value : Option Value} (held : StartHeld context layout atRoot tag field value)
    (noAttribute : attributesOf layout atRoot field tag.attributes = [])
    (noDefault : ∀ read, ¬ IsDefault field.declared read) : value = none := by
  cases value with
  | none => rfl
  | some read => exact absurd (held.isDefault noAttribute read rfl) (noDefault read)

theorem StartHeld.eq_none_of_textless {value : Option Value}
    (held : StartHeld context layout atRoot tag field value) (placed : layout.Placed)
    (member : field ∈ layout.fields)
    (textless : ∀ type, field.declared.scalarType? = some type → type = .tree) : value = none := by
  refine held.eq_none (attributesOf_eq_nil (noAttribute_of_placed placed member textless)) ?_
  rintro read ⟨text, type, location, _, typeEq, coerceEq⟩
  rw [textless type typeEq] at coerceEq
  cases coerceEq

/-- What becomes of a field in the content: it is the content field, it has no children, or it is what
they are read as. -/
inductive ContentHeld (context : Context) (layout : Layout) (atRoot : Bool) (start : Start)
    (field : TaggedField) (before : Option Value) : Option Value → Prop
  | content {type : ScalarType} {read : Value} (isContent : layout.contentField? = some field)
      (typeEq : field.declared.scalarType? = some type)
      (scalarEq : context.scalar field.declared type start.tag start.inside = .ok read) :
      ContentHeld context layout atRoot start field before (some read)
  | kept (notContent : layout.contentField? ≠ some field)
      (childless : childrenOf layout field start.inside = []) :
      ContentHeld context layout atRoot start field before before
  | children {read : Value} (notContent : layout.contentField? ≠ some field)
      (present : childrenOf layout field start.inside ≠ [])
      (noAttribute : attributesOf layout atRoot field start.tag.attributes = [])
      (valueFrom : ValueFrom context field (childrenOf layout field start.inside) read) :
      ContentHeld context layout atRoot start field before (some read)

theorem contentHeld (placed : frame.layout.Placed) (sole : frame.layout.Sole field)
    (unread : field.declared.scalarType? = none → values.get? field.name = none)
    (goesOn : (match frame.layout.contentField? with
      | some field => context.readContentField frame values field tag inside
      | none => context.childrenIn inside frame values) session = .ok (values', session')) :
    ContentHeld context frame.layout atRoot ⟨className, tag, inside⟩ field (values.get? field.name)
      (values'.get? field.name) := by
  cases contentEq : frame.layout.contentField? with
  | some other =>
      simp only [contentEq] at goesOn
      obtain ⟨type, typeEq⟩ := placed.content_scalarType? contentEq
      obtain ⟨read, scalarEq, rfl⟩ := readContentField_eq_ok typeEq goesOn
      by_cases same : other = field
      · subst same
        rw [OrderedMap.get?_set_self]
        exact .content contentEq typeEq scalarEq
      · have otherName : other.name ≠ field.name := fun equal =>
          same (sole other (Schema.Layout.contentField?_mem_fields contentEq).1 equal)
        rw [OrderedMap.get?_set_of_ne _ _ otherName]
        refine .kept ?_ ?_
        · rw [contentEq]
          exact fun isContent => same (Option.some.inj isContent)
        · rw [childrenOf, contentEq, Option.isNone_some, if_neg Bool.false_ne_true]
  | none =>
      simp only [contentEq] at goesOn
      have notContent : frame.layout.contentField? ≠ some field := by
        rw [contentEq]
        exact (Option.some_ne_none field).symm
      have childrenEq : childrenOf frame.layout field inside = routed frame.layout field inside := by
        rw [childrenOf, contentEq, Option.isNone_none, if_pos rfl]
      have nothingYet : Gathered context field (values.get? field.name) [] (values.get? field.name) :=
        .inl ⟨rfl, rfl⟩
      have gathered := readChildren_gathered sole goesOn (fun _ => .inl rfl) unread nothingYet
      rw [List.nil_append, ← childrenEq] at gathered
      rcases gathered with ⟨childless, valueEq⟩ | ⟨children, read, valueEq, valueFrom⟩
      · rw [valueEq]
        exact .kept notContent childless
      · rw [valueEq]
        refine .children notContent children (attributesOf_eq_nil ?_) valueFrom
        obtain ⟨child, isChild⟩ := List.exists_mem_of_ne_nil _ children
        rw [childrenEq] at isChild
        have routes := of_decide_eq_true (List.mem_filter.1 isChild).2
        exact (not_isAttribute_of_elementFields (List.mem_of_find?_eq_some routes)).1

private theorem scalar_eq_ok {declared : Schema.Field} {type : ScalarType} {value : Value}
    (noTree : type ≠ .tree) (read : context.scalar declared type tag inside = .ok value) :
    coerce context.strict declared type inside.ownText (context.locate tag.position) = .ok value := by
  cases type with
  | tree => exact absurd rfl noTree
  | _ =>
      cases textEq : context.textOf inside with
      | error error =>
          simp only [Context.scalar, textEq] at read
          cases read
      | ok text =>
          simp only [Context.scalar, textEq] at read
          rw [← textOf_eq_ok textEq]
          exact read

private theorem scalar_tree_eq_ok {declared : Schema.Field} {value : Value}
    (read : context.scalar declared .tree tag inside = .ok value) :
    ∃ tree, context.treeOf tag inside = .ok tree ∧ value = .tree tree := by
  cases treeEq : context.treeOf tag inside with
  | error error =>
      simp only [Context.scalar, treeEq] at read
      cases read
  | ok tree =>
      simp only [Context.scalar, treeEq] at read
      cases read
      exact ⟨tree, rfl, rfl⟩

theorem ValueFrom.of_scalar {type : ScalarType} {children : List (Tag × Content)} {value : Value}
    (typeEq : field.declared.scalarType? = some type) (valueFrom : ValueFrom context field children value) :
    ∃ child, children = [child] ∧ context.scalar field.declared type child.1 child.2 = .ok value := by
  unfold Schema.Field.scalarType? at typeEq
  cases valueFrom with
  | scalar kindEq read =>
      simp only [kindEq, Option.some.injEq] at typeEq
      subst typeEq
      exact ⟨_, rfl, read⟩
  | entity kindEq | items kindEq | map kindEq =>
      simp only [kindEq] at typeEq
      cases typeEq

section Fields

variable {start : Start} {before value : Option Value}

theorem ContentHeld.scalarHeld (held : ContentHeld context layout atRoot start field before value)
    (started : StartHeld context layout atRoot start.tag field before) {type : ScalarType}
    (typeEq : field.declared.scalarType? = some type) (noTree : type ≠ .tree) :
    ScalarHeld context field type (givenText? layout atRoot start field)
      (context.locate start.tag.position) value := by
  cases held with
  | content isContent typeEq' scalarEq =>
      cases Option.some.inj (typeEq.symm.trans typeEq')
      rw [givenText?, if_pos isContent]
      refine ⟨?_, nofun, nofun⟩
      intro text position textEq
      cases textEq
      exact ⟨_, scalar_eq_ok noTree scalarEq, rfl⟩
  | kept notContent childless =>
      rw [givenText?, if_neg notContent, childless]
      simp only [List.head?_nil, Option.map_none, Option.or_none]
      refine ⟨?_, ?_, ?_⟩
      · intro text position textEq
        obtain ⟨pair, last, pairEq⟩ := Option.map_eq_some_iff.1 textEq
        cases pairEq
        exact started.ofAttribute pair last type typeEq
      · intro noText text defaultEq
        have noAttribute := List.getLast?_eq_none_iff.1 (Option.map_eq_none_iff.1 noText)
        exact started.ofDefault noAttribute text defaultEq type typeEq noTree
      · intro noText defaultEq
        refine started.eq_none (List.getLast?_eq_none_iff.1 (Option.map_eq_none_iff.1 noText)) ?_
        rintro read ⟨text, _, _, defaultEq', _⟩
        rw [defaultEq] at defaultEq'
        cases defaultEq'
  | children notContent present noAttribute valueFrom =>
      obtain ⟨child, childrenEq, scalarEq⟩ := valueFrom.of_scalar typeEq
      rw [givenText?, if_neg notContent, noAttribute, childrenEq]
      refine ⟨?_, nofun, nofun⟩
      intro text position textEq
      cases textEq
      exact ⟨_, scalar_eq_ok noTree scalarEq, rfl⟩

theorem ContentHeld.treeHeld (held : ContentHeld context layout atRoot start field before value)
    (unset : before = none) (typeEq : field.declared.scalarType? = some .tree) :
    TreeHeld context (givenElement? layout start field) value := by
  cases held with
  | content isContent typeEq' scalarEq =>
      cases Option.some.inj (typeEq.symm.trans typeEq')
      rw [givenElement?, if_pos isContent]
      refine ⟨?_, nofun⟩
      intro element elementEq
      cases elementEq
      obtain ⟨tree, treeEq, rfl⟩ := scalar_tree_eq_ok scalarEq
      exact ⟨tree, treeEq, rfl⟩
  | kept notContent childless =>
      rw [givenElement?, if_neg notContent, childless]
      exact ⟨nofun, fun _ => unset⟩
  | children notContent present noAttribute valueFrom =>
      obtain ⟨child, childrenEq, scalarEq⟩ := valueFrom.of_scalar typeEq
      rw [givenElement?, if_neg notContent, childrenEq]
      refine ⟨?_, nofun⟩
      intro element elementEq
      cases elementEq
      obtain ⟨tree, treeEq, rfl⟩ := scalar_tree_eq_ok scalarEq
      exact ⟨tree, treeEq, rfl⟩

theorem ContentHeld.gathered (held : ContentHeld context layout atRoot start field before value)
    (unset : before = none) (noScalar : field.declared.scalarType? = none) :
    Gathered context field none (childrenOf layout field start.inside) value := by
  cases held with
  | content isContent typeEq =>
      rw [noScalar] at typeEq
      cases typeEq
  | kept notContent childless => exact .inl ⟨childless, unset⟩
  | children notContent present noAttribute valueFrom => exact .inr ⟨present, _, rfl, valueFrom⟩

end Fields

/-! ### Entities -/

/-- The two stages of a field whose name no other field has. -/
theorem readEntity_contentHeld (layoutEq : context.schema.layout? className = some layout)
    (placed : layout.Placed) (member : field ∈ layout.fields) (sole : layout.Sole field)
    {entity : Entity}
    (runs : context.readEntity className tag inside atRoot session = .ok (entity, session')) :
    ∃ before, StartHeld context layout atRoot tag field before ∧
      ContentHeld context layout atRoot ⟨className, tag, inside⟩ field before
        (entity.get? field.name) := by
  obtain ⟨frame, values, begun, values', begins, goesOn, rfl⟩ := entity_eq_ok runs
  obtain rfl : frame.layout = layout :=
    Option.some.inj ((beginEntity_layout? begins).symm.trans layoutEq)
  have started := startHeld_of_begins sole member begins
  refine ⟨values.get? field.name, started, contentHeld placed sole ?_ goesOn⟩
  intro noScalar
  refine started.eq_none_of_textless placed member ?_
  intro type typeEq
  rw [noScalar] at typeEq
  cases typeEq

theorem readEntity_gathered (layoutEq : context.schema.layout? className = some layout)
    (placed : layout.Placed) (member : field ∈ layout.fields) (sole : layout.Sole field)
    (noScalar : field.declared.scalarType? = none) {entity : Entity}
    (runs : context.readEntity className tag inside atRoot session = .ok (entity, session')) :
    Gathered context field none (childrenOf layout field inside) (entity.get? field.name) := by
  obtain ⟨before, started, held⟩ := readEntity_contentHeld layoutEq placed member sole runs
  refine held.gathered (started.eq_none_of_textless placed member ?_) noScalar
  intro type typeEq
  rw [noScalar] at typeEq
  cases typeEq

/-- In a schema that is built, with fields of distinct names in each class, every entity is assembled
from the defaults of its class, its attributes and its content. -/
theorem entities_assembled {declarations : Declarations}
    (built : declarations.build = .ok context.schema) (distinct : DistinctFields context.schema)
    {entity : Entity}
    (runs : context.readEntity className tag inside atRoot session = .ok (entity, session')) :
    ∃ layout, context.schema.layout? className = some layout ∧ entity.className = className ∧
      Assembled context layout atRoot ⟨className, tag, inside⟩ entity := by
  obtain ⟨frame, values, begun, values', begins, goesOn, entityEq⟩ := entity_eq_ok runs
  have layoutEq := beginEntity_layout? begins
  obtain ⟨resolved, found, resolvedEq⟩ := Option.map_eq_some_iff.1 layoutEq
  have placed := placed_of_layout? built layoutEq
  have names : DistinctNames frame.layout :=
    resolvedEq ▸ distinct resolved (List.mem_of_find?_eq_some found)
  have soleOf (field : TaggedField) (member : field ∈ frame.layout.fields) :
      frame.layout.Sole field :=
    fun other otherMember => names.eq_of_name_eq otherMember member
  have keysEq := entity_firstSetAs placed begins goesOn
  refine ⟨frame.layout, layoutEq, ?_, ?_, ?_, ?_, ?_, ?_⟩
  · rw [entityEq]
    rfl
  · rw [entityEq]
    exact keysEq
  · have nodup := nodup_eraseDups (defaultNames frame.layout.fields ++
      attributeNames frame.layout atRoot tag.attributes ++ contentNames frame.layout inside)
    rw [← keysEq] at nodup
    rw [entityEq]
    exact nodup
  · intro field member type typeEq noTree
    obtain ⟨before, started, held⟩ :=
      readEntity_contentHeld layoutEq placed member (soleOf field member) runs
    exact held.scalarHeld started typeEq noTree
  · intro field member typeEq
    obtain ⟨before, started, held⟩ :=
      readEntity_contentHeld layoutEq placed member (soleOf field member) runs
    refine held.treeHeld (started.eq_none_of_textless placed member ?_) typeEq
    intro type typeEq'
    exact Option.some.inj (typeEq'.symm.trans typeEq)
  · intro field member noScalar
    exact readEntity_gathered layoutEq placed member (soleOf field member) noScalar runs

end Values

def order : Declarations where
  classes := [
    { name := "Order"
      fields := [
        { name := "number", kind := .scalar .text, isAttribute := true },
        { name := "note", kind := .scalar .text, default := some "none" },
        { name := "count", kind := .scalar (.integer .int), default := some "1" },
        { name := "lines", kind := .many .list (.scalar .text) false, default := some "x" }] }]
  roots := ["Order"]

/-- The count of an order is read after its first line and stays where its default has been. -/
theorem entities_assembled_of_order :
    let document := "<order number='7'><line>a</line><count>2</count><line>b</line></order>"
    ∃ schema graph layout tag inside,
      order.build = .ok schema ∧ DistinctFields schema ∧
      (Reader.mk schema {}).readAs "Order" document none = .ok graph ∧
      Assembled ⟨schema, true, none⟩ layout true ⟨"Order", tag, inside⟩ graph.root ∧
      graph.root.fields.keys = ["note", "count", "number", "lines"] ∧
      (graph.root.get? "count").bind (·.scalarText?) = some "2" ∧
      (graph.root.get? "note").bind (·.scalarText?) = some "none" := by
  intro document
  have passes : order.build.toOption.any (fun schema =>
      decide (DistinctFields schema) &&
        ((Reader.mk schema {}).readAs "Order" document none).toOption.any fun graph =>
          graph.root.fields.keys = ["note", "count", "number", "lines"] ∧
          (graph.root.get? "count").bind (·.scalarText?) = some "2" ∧
          (graph.root.get? "note").bind (·.scalarText?) = some "none") = true := by
    decide +kernel
  obtain ⟨schema, built, passes⟩ := Schema.exists_built passes
  simp only [Bool.and_eq_true, Option.any_eq_true, decide_eq_true_eq] at passes
  obtain ⟨distinct, graph, found, keysEq, counts, notes⟩ := passes
  have reads := eq_ok_of_toOption found
  obtain ⟨tag, inside, session, _, entityEq, _⟩ := readDocument_eq_ok reads
  simp only [ite_self] at entityEq
  obtain ⟨layout, _, _, assembled⟩ := entities_assembled built distinct entityEq
  exact ⟨schema, graph, layout, tag, inside, built, distinct, reads, assembled, keysEq, counts, notes⟩

end Trellis.Reading
