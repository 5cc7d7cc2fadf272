import Trellis.Proofs.Reading.Identities
import Trellis.Proofs.Reading.Sites

/-!
The places that a read records.

For each field of an entity the start tag says where it was read, or else the first child that
belongs to it, and the entries of its value are found in those children.  This holds of the children
read so far at every token of the content, for a field whose name no other one has.
-/

namespace Trellis.Schema

def Layout.Sole (layout : Layout) (field : TaggedField) : Prop :=
  ∀ other ∈ layout.fields, other.name = field.name → other = field

instance (layout : Layout) (field : TaggedField) : Decidable (layout.Sole field) :=
  inferInstanceAs (Decidable (∀ other ∈ layout.fields, other.name = field.name → other = field))

end Trellis.Schema

namespace Trellis.Reading

open Trellis.Graph (Entity Value)
open Markup (Content Tag)
open Schema (Collection FieldKind ItemType Layout MapEncoding ScalarType TaggedField)

/-! ### Children read so far -/

def ItemsFound (context : Context) (id : EntityId) (field : TaggedField) (collection : Collection)
    (type : ScalarType) (wrapped : Bool) (children : List (Tag × Content)) (value : Option Value)
    (session : Session) : Prop :=
  ∃ items, ItemsRead context field type (itemElements field wrapped children) items ∧
    HasEntries id field (context.itemEntries collection (keptItems collection items)) session ∧
    value = if children = [] then none
      else some (.collection collection ((keptItems collection items).map (·.2)))

structure MapFound (context : Context) (id : EntityId) (field : TaggedField) (encoding : MapEncoding)
    (children : List (Tag × Content)) (value : Option Value) (session : Session) : Prop where
  entries : HasEntries id field
    (context.mapEntries field encoding (children.flatMap (·.2.elements))) session
  unread : children = [] → value = none
  read : children ≠ [] → ∃ texts, value = some (.map texts) ∧ ∀ key, key ∈ OrderedMap.keys texts ↔
    .key key ∈ (context.mapEntries field encoding (children.flatMap (·.2.elements))).map (·.1)

def EntriesFound (context : Context) (id : EntityId) (field : TaggedField)
    (children : List (Tag × Content)) (value : Option Value) (session : Session) : Prop :=
  match field.declared.kind with
  | .many collection (.scalar type) wrapped =>
      ItemsFound context id field collection type wrapped children value session
  | .map encoding => MapFound context id field encoding children value session
  | _ => HasEntries id field [] session

/-- What is recorded for a field when these children have been read for it, and the place is what
the start tag has given. -/
structure Found (context : Context) (id : EntityId) (field : TaggedField) (place : Option Location)
    (children : List (Tag × Content)) (value : Option Value) (session : Session) : Prop where
  place : session.locations.fieldPlace? id field.name = place.or
    (if field.declared.target? = none then children.head?.map (context.locate ·.1.position) else none)
  entries : EntriesFound context id field children value session

variable {context : Context} {id : EntityId} {field : TaggedField} {place : Option Location}
  {children : List (Tag × Content)} {value : Option Value} {session session' : Session}

theorem entriesFound_items_iff {collection : Collection} {type : ScalarType} {wrapped : Bool}
    (kindEq : field.declared.kind = .many collection (.scalar type) wrapped) :
    EntriesFound context id field children value session ↔
      ItemsFound context id field collection type wrapped children value session := by
  unfold EntriesFound
  rw [kindEq]

theorem entriesFound_map_iff {encoding : MapEncoding} (kindEq : field.declared.kind = .map encoding) :
    EntriesFound context id field children value session ↔
      MapFound context id field encoding children value session := by
  unfold EntriesFound
  rw [kindEq]

private theorem entriesFound_scalar_iff {type : ScalarType}
    (kindEq : field.declared.kind = .scalar type) :
    EntriesFound context id field children value session ↔ HasEntries id field [] session := by
  unfold EntriesFound
  rw [kindEq]

theorem EntriesFound.same (found : EntriesFound context id field children value session)
    (same : SameRecords id field.name session session') :
    EntriesFound context id field children value session' := by
  unfold EntriesFound at found ⊢
  cases kindEq : field.declared.kind with
  | scalar type =>
      simp only [kindEq] at found ⊢
      exact found.same same
  | one target =>
      simp only [kindEq] at found ⊢
      exact found.same same
  | many collection type wrapped =>
      cases type with
      | entity target =>
          simp only [kindEq] at found ⊢
          exact found.same same
      | scalar type =>
          simp only [kindEq] at found ⊢
          obtain ⟨items, read, has, valueEq⟩ := found
          exact ⟨items, read, has.same same, valueEq⟩
  | map encoding =>
      simp only [kindEq] at found ⊢
      exact ⟨found.entries.same same, found.unread, found.read⟩

private theorem entriesFound_of_entities (entities : field.declared.target? ≠ none) :
    EntriesFound context id field children value session ↔ HasEntries id field [] session := by
  unfold Schema.Field.target? at entities
  unfold EntriesFound
  split at entities
  · rename_i kindEq
    rw [kindEq]
  · rename_i kindEq
    rw [kindEq]
  · exact absurd rfl entities

theorem Found.same (found : Found context id field place children value session)
    (same : SameRecords id field.name session session') :
    Found context id field place children value session' :=
  ⟨same.place.trans found.place, found.entries.same same⟩

theorem Found.place_recordField (found : Found context id field place children value session)
    (external : field.declared.target? = none) (child : Tag × Content) :
    LocationMap.fieldPlace?
        (session.locations.setField id field.name (context.locate child.1.position)) id field.name =
      place.or (if field.declared.target? = none then
        (children ++ [child]).head?.map (context.locate ·.1.position) else none) := by
  rw [LocationMap.fieldPlace?_setField, if_pos ⟨rfl, rfl⟩, found.place, if_pos external, if_pos external,
    Option.or_assoc]
  cases children <;> rfl

/-! ### One child more -/

theorem readField_eq_set {frame : Frame} {values values' : FieldValues} {tag : Tag} {inside : Content}
    (runs : context.readField frame values field tag inside session = .ok (values', session')) :
    ∃ value, values' = values.set field.name value := by
  unfold Context.readField Context.field at runs
  cases kindEq : field.declared.kind with
  | scalar type =>
      simp only [kindEq] at runs
      obtain ⟨value, _, _, goesOn⟩ := Read.bind_eq_ok runs
      obtain ⟨_, _, _, ends⟩ := Read.bind_eq_ok goesOn
      cases ends
      exact ⟨value, rfl⟩
  | one target =>
      simp only [kindEq] at runs
      obtain ⟨entity, _, _, ends⟩ := Read.bind_eq_ok runs
      cases ends
      exact ⟨_, rfl⟩
  | many collection type wrapped =>
      cases wrapped with
      | true =>
          simp only [kindEq] at runs
          obtain ⟨_, _, _, goesOn⟩ := Read.bind_eq_ok runs
          obtain ⟨holder, _, _, ends⟩ := Read.bind_eq_ok goesOn
          cases ends
          exact ⟨holder, rfl⟩
      | false =>
          simp only [kindEq] at runs
          obtain ⟨value, _, _, keeps⟩ := Read.bind_eq_ok runs
          exact ⟨_, keepItem_eq_ok keeps⟩
  | map encoding =>
      simp only [kindEq] at runs
      obtain ⟨_, _, _, goesOn⟩ := Read.bind_eq_ok runs
      obtain ⟨entries, _, _, ends⟩ := Read.bind_eq_ok goesOn
      cases ends
      exact ⟨_, rfl⟩

section Child

variable {frame : Frame} {values values' : FieldValues} {tag : Tag} {inside : Content}

private theorem readField_sameRecords {other : TaggedField}
    (runs : context.readField frame values other tag inside session = .ok (values', session'))
    (isOpen : session.Open frame.id)
    (elsewhere : other.declared.target? = none → field.name ≠ other.name) :
    SameRecords frame.id field.name session session' := by
  have advances := gives_readField context frame values other tag inside _ _ _ runs
  refine advances.elsewhere frame.id field.name ?_ (.inl isOpen.begun)
  rintro ⟨external, _, same⟩
  exact elsewhere external same

private theorem wrapped_found {collection : Collection} {type : ScalarType}
    (kindEq : field.declared.kind = .many collection (.scalar type) true)
    (runs : context.wrapped frame values field collection (.scalar type) tag
      (context.itemsIn frame.id field inside) session = .ok (values', session'))
    (found : Found context frame.id field place [] (values.get? field.name) session) :
    Found context frame.id field place [(tag, inside)] (values'.get? field.name) session' := by
  obtain ⟨_, middle, records, goesOn⟩ := Read.bind_eq_ok runs
  obtain ⟨holder, _, itemsRun, ends⟩ := Read.bind_eq_ok goesOn
  cases ends
  simp only [recordCollection, isRecorded] at records
  cases records
  have external : field.declared.target? = none := by
    rw [Schema.Field.target?, kindEq]
  obtain ⟨items, read, has, _⟩ := (entriesFound_items_iff kindEq).1 found.entries
  rw [itemElements, if_pos rfl, List.flatMap_nil] at read
  cases read
  obtain ⟨more, read, holderEq, hasMore, placeEq⟩ := readItems_found itemsRun rfl has.recordField
  constructor
  · rw [placeEq]
    exact found.place_recordField external (tag, inside)
  · refine (entriesFound_items_iff kindEq).2 ⟨more, ?_, hasMore, ?_⟩
    · simpa only [itemElements, if_true, List.flatMap_cons, List.flatMap_nil, List.append_nil] using read
    · rw [OrderedMap.get?_set_self, holderEq, if_neg (List.cons_ne_nil _ _)]
      rfl

private theorem unwrapped_found {collection : Collection} {type : ScalarType}
    (kindEq : field.declared.kind = .many collection (.scalar type) false)
    (runs : context.unwrapped frame values field collection (.scalar type) tag inside
      (context.childrenIn inside) session = .ok (values', session'))
    (found : Found context frame.id field place children (values.get? field.name) session) :
    Found context frame.id field place (children ++ [(tag, inside)]) (values'.get? field.name)
      session' := by
  obtain ⟨item, scalarEq, keeps⟩ := Read.lift_bind_eq_ok runs
  obtain ⟨_, _, records, goesOn⟩ := Read.bind_eq_ok keeps
  obtain ⟨holder, _, adds, ends⟩ := Read.bind_eq_ok goesOn
  cases ends
  simp only [recordCollection, isRecorded] at records
  cases records
  have external : field.declared.target? = none := by
    rw [Schema.Field.target?, kindEq]
  obtain ⟨items, read, has, valueEq⟩ := (entriesFound_items_iff kindEq).1 found.entries
  rw [itemElements, if_neg Bool.false_ne_true] at read
  have holderEq : (values.get? field.name).getD (.collection collection []) =
      .collection collection ((keptItems collection items).map (·.2)) := by
    rw [valueEq]
    split
    · rename_i none
      rw [none] at read
      cases read
      rfl
    · rfl
  rw [holderEq] at adds
  obtain ⟨pushedEq, hasAfter, placeEq⟩ := addItem_found adds has.recordField
  rw [← keptItems_concat] at pushedEq hasAfter
  constructor
  · rw [placeEq]
    exact found.place_recordField external (tag, inside)
  · refine (entriesFound_items_iff kindEq).2 ⟨items ++ [(tag, item)], ?_, hasAfter, ?_⟩
    · rw [itemElements, if_neg Bool.false_ne_true]
      exact List.rel_append read (.cons ⟨rfl, scalarEq⟩ .nil)
    · rw [OrderedMap.get?_set_self, pushedEq,
        if_neg (List.append_ne_nil_of_right_ne_nil _ (List.cons_ne_nil _ _))]

private theorem readMap_found {encoding : MapEncoding} (kindEq : field.declared.kind = .map encoding)
    (runs : context.readMap frame values field encoding tag inside session = .ok (values', session'))
    (found : Found context frame.id field place [] (values.get? field.name) session) :
    Found context frame.id field place [(tag, inside)] (values'.get? field.name) session' := by
  obtain ⟨_, _, records, goesOn⟩ := Read.bind_eq_ok runs
  obtain ⟨texts, _, entriesRun, ends⟩ := Read.bind_eq_ok goesOn
  cases ends
  cases records
  have external : field.declared.target? = none := by
    rw [Schema.Field.target?, kindEq]
  have has := ((entriesFound_map_iff kindEq).1 found.entries).entries
  rw [List.flatMap_nil] at has
  obtain ⟨hasAll, keys, placeEq⟩ := readEntries_found entriesRun has.recordField
  have elementsEq : [(tag, inside)].flatMap (·.2.elements) = inside.elements := by
    rw [List.flatMap_cons, List.flatMap_nil, List.append_nil]
  constructor
  · rw [placeEq]
    exact found.place_recordField external (tag, inside)
  · refine (entriesFound_map_iff kindEq).2 ⟨?_, ?_, ?_⟩
    · rw [elementsEq]
      exact hasAll
    · intro none
      cases none
    · intro _
      refine ⟨texts, OrderedMap.get?_set_self _ _ _, ?_⟩
      intro key
      rw [elementsEq, keys]
      simp [OrderedMap.keys]

private theorem entities_found (entities : field.declared.target? ≠ none)
    (runs : context.readField frame values field tag inside session = .ok (values', session'))
    (isOpen : session.Open frame.id)
    (found : Found context frame.id field place children (values.get? field.name) session) :
    Found context frame.id field place (children ++ [(tag, inside)]) (values'.get? field.name)
      session' := by
  have notHere (external : field.declared.target? = none) : field.name ≠ field.name :=
    absurd external entities
  have same := readField_sameRecords runs isOpen notHere
  have placeEq := found.place
  rw [if_neg entities] at placeEq
  have noEntries := (entriesFound_of_entities entities).1 found.entries
  refine ⟨?_, (entriesFound_of_entities entities).2 (noEntries.same same)⟩
  rw [if_neg entities, same.place]
  exact placeEq

private theorem readField_found
    (runs : context.readField frame values field tag inside session = .ok (values', session'))
    (isOpen : session.Open frame.id) (single : field.declared.isUnwrapped = false → children = [])
    (found : Found context frame.id field place children (values.get? field.name) session) :
    Found context frame.id field place (children ++ [(tag, inside)]) (values'.get? field.name)
      session' := by
  by_cases entities : field.declared.target? ≠ none
  · exact entities_found entities runs isOpen found
  · have external := not_not.1 entities
    unfold Context.readField Context.field at runs
    unfold Schema.Field.isUnwrapped at single
    cases kindEq : field.declared.kind with
    | scalar type =>
        simp only [kindEq] at runs single
        rw [single trivial] at found ⊢
        obtain ⟨_, _, goesOn⟩ := Read.lift_bind_eq_ok runs
        obtain ⟨_, _, records, ends⟩ := Read.bind_eq_ok goesOn
        cases ends
        cases records
        have noEntries := (entriesFound_scalar_iff kindEq).1 found.entries
        exact ⟨found.place_recordField external (tag, inside),
          (entriesFound_scalar_iff kindEq).2 noEntries.recordField⟩
    | one target =>
        rw [Schema.Field.target?, kindEq] at external
        cases external
    | many collection type isWrapped =>
        cases type with
        | entity target =>
            rw [Schema.Field.target?, kindEq] at external
            cases external
        | scalar type =>
            cases isWrapped with
            | true =>
                simp only [kindEq] at runs single
                rw [single rfl] at found ⊢
                exact wrapped_found kindEq runs found
            | false =>
                simp only [kindEq] at runs
                exact unwrapped_found kindEq runs found
    | map encoding =>
        simp only [kindEq] at runs single
        rw [single trivial] at found ⊢
        exact readMap_found kindEq runs found

end Child

/-! ### All children -/

theorem takesOnce_of_takeTag {seen seen' : List String} {tag : Tag}
    (takes : context.takeTag field seen tag = .ok seen') :
    seen ⊆ seen' ∧ (field.declared.isUnwrapped = false → field.tag ∉ seen ∧ field.tag ∈ seen') := by
  unfold Context.takeTag at takes
  split at takes
  · rename_i unwrapped
    cases takes
    refine ⟨List.Subset.refl _, ?_⟩
    intro single
    rw [single] at unwrapped
    cases unwrapped
  · split at takes
    · cases takes
    · rename_i free
      cases takes
      refine ⟨List.subset_cons_self _ _, ?_⟩
      intro _
      exact ⟨fun known => free (List.contains_iff_mem.2 known), List.mem_cons_self⟩

theorem routed_element (layout : Layout) (field : TaggedField) (tag : Tag) (inside rest : Content) :
    routed layout field (.element tag inside rest) =
      if layout.elementField? tag.name = some field then (tag, inside) :: routed layout field rest
      else routed layout field rest := by
  unfold routed
  rw [Content.elements, List.filter_cons]
  simp only [decide_eq_true_eq]

private theorem readChildren_found {frame : Frame} {values values' : FieldValues} {seen : List String}
    {content : Content} (sole : frame.layout.Sole field)
    (runs : context.readChildren frame values seen content session = .ok (values', session'))
    (isOpen : session.Open frame.id)
    (taken : field.declared.isUnwrapped = false → children = [] ∨ field.tag ∈ seen)
    (found : Found context frame.id field place children (values.get? field.name) session) :
    Found context frame.id field place (children ++ routed frame.layout field content)
      (values'.get? field.name) session' := by
  induction content generalizing values seen session children with
  | closed encoding =>
      cases runs
      rw [routed, Content.elements, List.filter_nil, List.append_nil]
      exact found
  | broken ending => cases runs
  | text position text rest ih =>
      obtain ⟨_, _, goesOn⟩ := Read.lift_bind_eq_ok runs
      exact ih goesOn isOpen taken found
  | element tag inside rest _ ih =>
      simp only [Context.readChildren] at runs
      rw [routed_element]
      cases routeEq : frame.layout.elementField? tag.name with
      | none =>
          simp only [routeEq] at runs
          obtain ⟨_, _, goesOn⟩ := Read.lift_bind_eq_ok runs
          rw [if_neg (Option.some_ne_none field).symm]
          exact ih goesOn isOpen taken found
      | some other =>
          simp only [routeEq] at runs
          obtain ⟨seen', _, takes, goesOn⟩ := Read.bind_eq_ok runs
          obtain ⟨takesEq, rfl⟩ := Read.lift_eq_ok takes
          obtain ⟨between, middle, fieldRun, goesOn⟩ := Read.bind_eq_ok goesOn
          obtain ⟨kept, takesOne⟩ := takesOnce_of_takeTag takesEq
          have advances := gives_readField context frame values other tag inside _ _ _ fieldRun
          have isOpen' := isOpen.later advances (ofOwnField_of _ _)
          -- A child of the field comes behind the others; a field of one child has taken its tag.
          by_cases same : other = field
          · subst same
            have single (single : other.declared.isUnwrapped = false) : children = [] :=
              (taken single).resolve_right (takesOne single).1
            have step := readField_found fieldRun isOpen single found
            rw [if_pos rfl, List.append_cons]
            exact ih goesOn isOpen' (fun single => .inr (takesOne single).2) step
          · have otherMember := Layout.mem_fields_of_elementField? routeEq
            have otherName : other.name ≠ field.name := fun equal => same (sole other otherMember equal)
            have sameRecords := readField_sameRecords fieldRun isOpen fun _ => otherName.symm
            obtain ⟨value, valuesEq⟩ := readField_eq_set fieldRun
            have valueEq : between.get? field.name = values.get? field.name := by
              rw [valuesEq, OrderedMap.get?_set_of_ne _ _ otherName]
            rw [← valueEq] at found
            rw [if_neg fun equal => same (Option.some.inj equal)]
            refine ih goesOn isOpen' ?_ (found.same sameRecords)
            exact fun single => (taken single).imp_right fun known => kept known

/-! ### Start tags -/

private theorem defaultValues_unread {layout : Layout} {location : Location} {values : FieldValues}
    (sole : layout.Sole field) (noScalar : field.declared.scalarType? = none)
    (read : defaultValues layout location = .ok values) : values.get? field.name = none := by
  refine @defaultValues_induction layout location (fun values => values.get? field.name = none) rfl ?_
    values read
  intro other member _ type before value _ typeEq _ unread
  have otherName : other.name ≠ field.name := by
    intro same
    rw [sole other member same, noScalar] at typeEq
    cases typeEq
  rw [OrderedMap.get?_set_of_ne _ _ otherName]
  exact unread

def givenBy (layout : Layout) (atRoot : Bool) (field : TaggedField)
    (attributes : List (String × String)) : Bool :=
  field.declared.scalarType?.isSome && attributes.any fun pair =>
    isOwnAttribute atRoot pair.1 && layout.attributeField? pair.1 = some field

private theorem givenBy_cons (layout : Layout) (atRoot : Bool) (field : TaggedField)
    (pair : String × String)
    (rest : List (String × String)) :
    givenBy layout atRoot field (pair :: rest) =
      ((field.declared.scalarType?.isSome && isOwnAttribute atRoot pair.1 &&
        decide (layout.attributeField? pair.1 = some field)) || givenBy layout atRoot field rest) := by
  simp only [givenBy, List.any_cons, Bool.and_or_distrib_left, Bool.and_assoc]

private theorem scalar_and_same {other : TaggedField} {type : ScalarType}
    (typeEq : other.declared.scalarType? = some type) :
    (field.declared.scalarType?.isSome && decide (other = field)) = decide (other = field) := by
  by_cases same : other = field
  · rw [← same, typeEq]
    rfl
  · simp only [same, decide_false, Bool.and_false]

private theorem not_scalar_and_same {other : TaggedField} (typeEq : other.declared.scalarType? = none) :
    (field.declared.scalarType?.isSome && decide (other = field)) = false := by
  by_cases same : other = field
  · rw [← same, typeEq]
    rfl
  · simp only [same, decide_false, Bool.and_false]

/-- What is recorded for a field is its place at the start tag, and nothing else has been read for
it yet. -/
structure Opened (frame : Frame) (field : TaggedField) (given : Bool) (values : FieldValues)
    (session : Session) : Prop where
  place : session.locations.fieldPlace? frame.id field.name = if given then some frame.location else none
  entries : HasEntries frame.id field [] session
  unread : field.declared.scalarType? = none → values.get? field.name = none

section StartTag

variable {frame : Frame} {values values' : FieldValues} {tag : Tag} {given : Bool}

theorem Opened.recordField (sole : frame.layout.Sole field) {other : TaggedField}
    (otherMember : other ∈ frame.layout.fields)
    {type : ScalarType} (typeEq : other.declared.scalarType? = some type) (value : Value)
    (opened : Opened frame field given values session) :
    Opened frame field (given || decide (other = field)) (values.set other.name value)
      { session with
        locations := session.locations.setField frame.id other.name frame.location } := by
  by_cases same : other = field
  · subst same
    refine ⟨?_, opened.entries.recordField, ?_⟩
    · rw [LocationMap.fieldPlace?_setField, if_pos ⟨rfl, rfl⟩, opened.place]
      cases given <;> simp
    · intro noScalar
      rw [noScalar] at typeEq
      cases typeEq
  · have otherName : field.name ≠ other.name := fun equal =>
      same (sole other otherMember equal.symm)
    rw [decide_eq_false same, Bool.or_false]
    refine ⟨?_, ?_, ?_⟩
    · rw [LocationMap.fieldPlace?_setField, if_neg fun equal => otherName equal.2]
      exact opened.place
    · intro key
      rw [LocationMap.entryPlace?_setField]
      exact opened.entries key
    · rw [OrderedMap.get?_set_of_ne _ _ otherName.symm]
      exact opened.unread

private theorem readAttributes_opened {atRoot : Bool} {attributes : List (String × String)}
    (sole : frame.layout.Sole field)
    (runs : context.readAttributes frame tag atRoot values attributes session = .ok (values', session'))
    (opened : Opened frame field given values session) :
    Opened frame field (given || givenBy frame.layout atRoot field attributes) values' session' := by
  induction attributes generalizing values session given with
  | nil =>
      cases runs
      rw [givenBy, List.any_nil, Bool.and_false, Bool.or_false]
      exact opened
  | cons pair rest ih =>
      obtain ⟨name, raw⟩ := pair
      simp only [Context.readAttributes] at runs
      rw [givenBy_cons, ← Bool.or_assoc]
      split at runs
      · rename_i own
        simp only [own, Bool.and_true]
        cases routeEq : frame.layout.attributeField? name with
        | none =>
            simp only [routeEq] at runs
            split at runs
            · cases runs
            · simp only [reduceCtorEq, decide_false, Bool.and_false, Bool.or_false]
              exact ih runs opened
        | some other =>
            simp only [routeEq] at runs
            simp only [Option.some.injEq]
            have otherMember : other ∈ frame.layout.fields := List.mem_of_find?_eq_some routeEq
            cases typeEq : other.declared.scalarType? with
            | none =>
                simp only [typeEq] at runs
                rw [not_scalar_and_same typeEq, Bool.or_false]
                exact ih runs opened
            | some type =>
                simp only [typeEq] at runs
                obtain ⟨value, _, goesOn⟩ := Read.lift_bind_eq_ok runs
                obtain ⟨_, _, records, goesOn⟩ := Read.bind_eq_ok goesOn
                cases records
                have step := opened.recordField sole otherMember typeEq value
                rw [scalar_and_same typeEq]
                exact ih goesOn step
      · rename_i own
        rw [Bool.not_eq_true] at own
        simp only [own, Bool.and_false, Bool.false_and, Bool.or_false]
        exact ih runs opened

private theorem readContentField_opened {inside : Content} (sole : frame.layout.Sole field)
    {other : TaggedField} (otherMember : other ∈ frame.layout.fields)
    (runs : context.readContentField frame values other tag inside session = .ok (values', session'))
    (opened : Opened frame field given values session) :
    Opened frame field
      (given || (field.declared.scalarType?.isSome && decide (other = field))) values' session' := by
  unfold Context.readContentField at runs
  cases typeEq : other.declared.scalarType? with
  | none =>
      simp only [typeEq] at runs
      obtain ⟨_, _, ends⟩ := Read.lift_bind_eq_ok runs
      cases ends
      rw [not_scalar_and_same typeEq, Bool.or_false]
      exact opened
  | some type =>
      simp only [typeEq] at runs
      obtain ⟨value, _, goesOn⟩ := Read.lift_bind_eq_ok runs
      obtain ⟨_, _, records, ends⟩ := Read.bind_eq_ok goesOn
      cases ends
      cases records
      rw [scalar_and_same typeEq]
      exact opened.recordField sole otherMember typeEq value

theorem Opened.found (opened : Opened frame field given values session) :
    Found context frame.id field (if given then some frame.location else none) []
      (values.get? field.name) session := by
  constructor
  · rw [opened.place, List.head?_nil, Option.map_none, ite_self, Option.or_none]
  · have unread := opened.unread
    unfold Schema.Field.scalarType? at unread
    unfold EntriesFound
    cases kindEq : field.declared.kind with
    | scalar type => exact opened.entries
    | one target => exact opened.entries
    | many collection type wrapped =>
        cases type with
        | entity target => exact opened.entries
        | scalar type =>
            simp only [kindEq, forall_const] at unread
            refine ⟨[], ?_, opened.entries, unread⟩
            have noElements : itemElements field wrapped [] = [] := by
              cases wrapped <;> rfl
            rw [noElements]
            exact .nil
    | map encoding =>
        simp only [kindEq, forall_const] at unread
        exact ⟨opened.entries, fun _ => unread, fun some => absurd rfl some⟩

end StartTag

/-! ### Entities -/

/-- The children of an entity that are read for the field; those of an entity with a content field
are not read. -/
def childrenOf (layout : Layout) (field : TaggedField) (inside : Content) : List (Tag × Content) :=
  if layout.contentField?.isNone then routed layout field inside else []

def givenAtStart (layout : Layout) (atRoot : Bool) (field : TaggedField) (tag : Tag) : Bool :=
  givenBy layout atRoot field tag.attributes ||
    (field.declared.scalarType?.isSome && layout.contentField? = some field)

structure StartTagRead (context : Context) (className : String) (tag : Tag) (atRoot : Bool)
    (frame : Frame) (values : FieldValues) (session : Session) : Prop where
  layout_eq : context.schema.layout? className = some frame.layout
  location_eq : frame.location = context.locate tag.position
  isOpen : session.Open frame.id
  opened : ∀ field, frame.layout.Sole field →
    Opened frame field (givenBy frame.layout atRoot field tag.attributes) values session
  foreign : ∀ name, (∀ field ∈ frame.layout.fields, field.name ≠ name) →
    NoRecords frame.id name session

section Entities

variable {className : String} {tag : Tag} {inside : Content} {atRoot : Bool} {entity : Entity}
  {frame : Frame} {values values' : FieldValues}

private theorem not_ofFrame {name : String}
    (foreign : ∀ field ∈ frame.layout.fields, field.name ≠ name) :
    ¬ ofFrame frame frame.id name := by
  rintro ⟨field, member, _, same⟩
  exact foreign field member same.symm

private theorem startTagRead
    (begins : context.beginEntity className tag atRoot session = .ok ((frame, values), session'))
    (fresh : session.Fresh) : StartTagRead context className tag atRoot frame values session' := by
  obtain ⟨resolved, found, _, frameEq, _, defaults, defaultsEq, attributesEq⟩ :=
    beginEntity_eq_ok begins
  have isOpen := fresh.begin (context.locate tag.position)
  have idEq : frame.id = ⟨session.nextId⟩ := by
    rw [frameEq]
  have layoutEq : frame.layout = resolved.layout := by
    rw [frameEq]
  have attributes := gives_readAttributes context frame tag atRoot tag.attributes defaults _ _ _
    attributesEq
  generalize begunEq : Session.mk (session.nextId + 1)
    (session.locations.setEntity ⟨session.nextId⟩ (context.locate tag.position)) = begun at *
  have unrecorded (name : String) : NoRecords frame.id name begun := by
    have none := fresh frame.id (by rw [idEq]) name
    rw [← begunEq]
    exact ⟨none.place, none.entries⟩
  rw [← idEq] at isOpen
  refine ⟨beginEntity_layout? begins, ?_, isOpen.later attributes (ofFrame_of _), ?_, ?_⟩
  · rw [frameEq]
  · intro field sole
    rw [← layoutEq] at defaultsEq
    have opened : Opened frame field false defaults begun :=
      ⟨(unrecorded field.name).place, (unrecorded field.name).entries,
        fun noScalar => defaultValues_unread sole noScalar defaultsEq⟩
    have read := readAttributes_opened sole attributesEq opened
    rwa [Bool.false_or] at read
  · intro name foreign
    exact (attributes.elsewhere frame.id name (not_ofFrame foreign) (.inl isOpen.begun)).noRecords
      (unrecorded name)

private theorem content_found (starts : StartTagRead context className tag atRoot frame values session)
    (goesOn : (match frame.layout.contentField? with
      | some field => context.readContentField frame values field tag inside
      | none => context.childrenIn inside frame values) session = .ok (values', session'))
    (sole : frame.layout.Sole field) :
    Found context frame.id field
      (if givenAtStart frame.layout atRoot field tag then some (context.locate tag.position) else none)
      (childrenOf frame.layout field inside) (values'.get? field.name) session' := by
  have opened := starts.opened field sole
  rw [← starts.location_eq]
  unfold givenAtStart childrenOf
  cases contentEq : frame.layout.contentField? with
  | some other =>
      simp only [contentEq] at goesOn
      have otherMember : other ∈ frame.layout.fields := List.mem_of_find?_eq_some contentEq
      have read : Found context frame.id field _ [] (values'.get? field.name) session' :=
        (readContentField_opened sole otherMember goesOn opened).found
      simpa only [Option.some.injEq, Option.isNone_some, Bool.false_eq_true, if_false] using read
  | none =>
      simp only [contentEq] at goesOn
      have read := readChildren_found sole goesOn starts.isOpen (fun _ => .inl rfl)
        opened.found
      simpa only [reduceCtorEq, decide_false, Bool.and_false, Bool.or_false, Option.isNone_none,
        if_true, List.nil_append] using read

private theorem content_foreign
    (starts : StartTagRead context className tag atRoot frame values session)
    (goesOn : (match frame.layout.contentField? with
      | some field => context.readContentField frame values field tag inside
      | none => context.childrenIn inside frame values) session = .ok (values', session'))
    {name : String} (foreign : ∀ field ∈ frame.layout.fields, field.name ≠ name) :
    NoRecords frame.id name session' := by
  have begun := starts.isOpen.begun
  cases contentEq : frame.layout.contentField? with
  | some other =>
      simp only [contentEq] at goesOn
      have otherMember : other ∈ frame.layout.fields := List.mem_of_find?_eq_some contentEq
      have content := gives_readContentField context frame values other tag inside _ _ _ goesOn
      refine (content.elsewhere frame.id name ?_ (.inl begun)).noRecords (starts.foreign name foreign)
      exact fun isOwn => not_ofFrame foreign ⟨other, otherMember, isOwn⟩
  | none =>
      simp only [contentEq] at goesOn
      have children := childrenGive context inside frame values _ _ _ goesOn
      refine (children.elsewhere frame.id name ?_ (.inl begun)).noRecords (starts.foreign name foreign)
      rintro ⟨field, isElement, _, isOwn⟩
      exact not_ofFrame foreign ⟨field, mem_fields_of_elementFields isElement, isOwn⟩

/-- What is recorded at the end tag of an entity, for each field whose name no other one has. -/
theorem readEntity_found_of_sole
    (runs : context.readEntity className tag inside atRoot session = .ok (entity, session'))
    (fresh : session.Fresh) :
    ∃ layout, context.schema.layout? className = some layout ∧ entity.className = className ∧
      (∀ field, layout.Sole field → Found context entity.id field
        (if givenAtStart layout atRoot field tag then some (context.locate tag.position) else none)
        (childrenOf layout field inside) (entity.get? field.name) session') ∧
      ∀ name, (∀ field ∈ layout.fields, field.name ≠ name) → NoRecords entity.id name session' := by
  obtain ⟨frame, values, begun, values', begins, goesOn, rfl⟩ := entity_eq_ok runs
  have starts := startTagRead begins fresh
  exact ⟨frame.layout, starts.layout_eq, rfl, fun field => content_found starts goesOn,
    fun name => content_foreign starts goesOn⟩

theorem readEntity_found (distinct : DistinctFields context.schema)
    (runs : context.readEntity className tag inside atRoot session = .ok (entity, session'))
    (fresh : session.Fresh) :
    ∃ layout, context.schema.layout? className = some layout ∧ entity.className = className ∧
      (∀ field ∈ layout.fields, Found context entity.id field
        (if givenAtStart layout atRoot field tag then some (context.locate tag.position) else none)
        (childrenOf layout field inside) (entity.get? field.name) session') ∧
      ∀ name, (∀ field ∈ layout.fields, field.name ≠ name) → NoRecords entity.id name session' := by
  obtain ⟨layout, layoutEq, classEq, found, foreign⟩ := readEntity_found_of_sole runs fresh
  obtain ⟨resolved, resolvedFound, rfl⟩ := Option.map_eq_some_iff.1 layoutEq
  have names : DistinctNames resolved.layout :=
    distinct resolved (List.mem_of_find?_eq_some resolvedFound)
  refine ⟨resolved.layout, layoutEq, classEq, ?_, foreign⟩
  intro field member
  exact found field fun other otherMember => names.eq_of_name_eq otherMember member

end Entities

end Trellis.Reading
