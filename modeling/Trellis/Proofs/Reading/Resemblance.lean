import Trellis.Proofs.Graph.Sameness
import Trellis.Proofs.Reading.Foresight
import Trellis.Proofs.Reading.Soundness

/-!
Reading documents that resemble one another.

If tags have their attributes in other orders, then the second read comes to the same entities as the
first one, although perhaps with their fields in other orders.  This holds from whatever identities
and values on, as long as the values are the same in that sense.
-/

namespace Trellis.Reading

open Trellis.Graph (Entity FieldsSame Tree Value)
open Markup (Content Document SameAttributes Tag)
open Schema (Collection Field ItemType Layout MapEncoding ScalarType TaggedField)

/-- Whatever the first read comes to, from whatever sessions on, the second one comes to something
related. -/
def Carries {α β : Type} (related : α → β → Prop) (read : Read α) (read' : Read β) : Prop :=
  ∀ session session',
    Expects none (fun found found' => related found.1 found'.1) (read session) (read' session')

namespace Carries

variable {α β γ δ : Type} {related : α → β → Prop} {read : Read α} {read' : Read β}

theorem pure {value : α} {value' : β} (holds : related value value') :
    Carries related (pure value) (pure value') :=
  fun _ _ => .ok holds

theorem throw {error : ReadError} : Carries related (throw error) read' :=
  fun _ _ => .failed

theorem throwAfter {outcome : Except ReadError γ} {error : ReadError} :
    Carries related (liftM outcome >>= fun _ => MonadExceptOf.throw error) read' := by
  intro session session'
  cases outcome <;> exact .failed

theorem modify (change change' : Session → Session) :
    Carries (fun _ _ => True) (modify change) (modify change') :=
  fun _ _ => .ok trivial

theorem lift {outcome : Except ReadError α} {outcome' : Except ReadError β}
    (expects : Expects none related outcome outcome') :
    Carries related (liftM outcome) (liftM outcome') := by
  intro session session'
  rw [Read.lift_apply, Read.lift_apply]
  exact expects.map fun _ _ holds => holds

theorem bind {related' : γ → δ → Prop} {next : α → Read γ} {next' : β → Read δ}
    (first : Carries related read read')
    (second : ∀ value value', related value value' → Carries related' (next value) (next' value')) :
    Carries related' (read >>= next) (read' >>= next') := by
  intro session session'
  apply (first session session').after
  intro found found' holds
  exact second found.1 found'.1 holds found.2 found'.2

theorem map {related' : γ → δ → Prop} {f : α → γ} {g : β → δ} (first : Carries related read read')
    (carries : ∀ value value', related value value' → related' (f value) (g value')) :
    Carries related' (f <$> read) (g <$> read') := by
  rw [← bind_pure_comp, ← bind_pure_comp]
  exact first.bind fun value value' holds => .pure (carries value value' holds)

theorem weaken {related' : α → β → Prop} (carries : Carries related read read')
    (imp : ∀ value value', related value value' → related' value value') :
    Carries related' read read' := by
  intro session session' found runs
  obtain ⟨found', runs', holds⟩ := carries session session' found runs
  exact ⟨found', runs', imp _ _ holds⟩

theorem trans {related' : β → γ → Prop} {later : α → γ → Prop} {read'' : Read γ}
    (first : Carries related read read') (second : Carries related' read' read'')
    (both : ∀ value value' value'', related value value' → related' value' value'' →
      later value value'') : Carries later read read'' := by
  intro session session'' found runs
  obtain ⟨found', runs', holds⟩ := first session session found runs
  obtain ⟨found'', runs'', holds'⟩ := second session session'' found' runs'
  exact ⟨found'', runs'', both _ _ _ holds holds'⟩

end Carries

variable {context : Context}

/-! ### Scalars -/

def PartsSame (parts parts' : String × List Tree) : Prop :=
  parts.1 = parts'.1 ∧ List.Forall₂ (fun tree tree' => tree.equal tree' = true) parts.2 parts'.2

private theorem equal_treeOfParts {tag tag' : Tag} (tags : tag.Resembles tag')
    {parts parts' : String × List Tree}
    (same : PartsSame parts parts') :
    (treeOfParts tag parts.1 parts.2).equal (treeOfParts tag' parts'.1 parts'.2) = true := by
  obtain ⟨textEq, children⟩ := same
  obtain ⟨nameEq, sameAttributes⟩ := tags
  have attributes :
      (OrderedMap.ofPairs tag.attributes).agrees (OrderedMap.ofPairs tag'.attributes) = true := by
    generalize tag'.attributes = attributes' at sameAttributes
    cases sameAttributes with
    | inOrder => exact OrderedMap.agrees_iff.2 fun _ => rfl
    | inAnyOrder distinct perm => exact Graph.agrees_ofPairs distinct perm
  unfold treeOfParts
  rw [Tree.equal, nameEq, textEq, attributes, Graph.Tree.allEqual_iff.2 children]
  simp

private theorem expects_partsOf_resembling {inside inside' : Content}
    (resembles : inside.Resembles inside') :
    Expects none PartsSame (context.partsOf inside) (context.partsOf inside') := by
  induction resembles with
  | closed encoding encoding' => exact .ok ⟨rfl, .nil⟩
  | broken texts ending content =>
      rw [partsOf_behind]
      exact .failed
  | texts same _ ih =>
      rw [partsOf_behind, partsOf_behind]
      apply ih.map
      intro parts parts' partsSame
      exact ⟨congrArg₂ (· ++ ·) same partsSame.1, partsSame.2⟩
  | element tags _ _ ihInside ihRest =>
      apply ihInside.after
      intro inner inner' innerSame
      apply ihRest.after
      intro parts parts' partsSame
      exact .ok ⟨partsSame.1, .cons (equal_treeOfParts tags innerSame) partsSame.2⟩

private theorem expects_scalar_resembling (field : Field) (type : ScalarType) {tag tag' : Tag}
    (tags : tag.Resembles tag') {inside inside' : Content} (resembles : inside.Resembles inside') :
    Expects none Value.Same (context.scalar field type tag inside)
      (context.scalar field type tag' inside') := by
  have textual (type : ScalarType) : Expects none Value.Same
      (context.textOf inside >>= fun text =>
        coerce context.strict field type text (context.locate tag.position))
      (context.textOf inside' >>= fun text =>
        coerce context.strict field type text (context.locate tag'.position)) := by
    apply (expects_textOf context resembles).after
    rintro text _ rfl
    have coerced := expects_coerce context.strict field type text (context.locate tag.position)
      (context.locate tag'.position)
    intro value valueEq
    obtain ⟨value', valueEq', same⟩ := coerced value valueEq
    exact ⟨value', valueEq', same ▸ .refl value⟩
  have whole : Expects none (fun tree tree' => tree.equal tree' = true) (context.treeOf tag inside)
      (context.treeOf tag' inside') := by
    apply (expects_partsOf_resembling resembles).after
    intro parts parts' same
    exact .ok (equal_treeOfParts tags same)
  cases type with
  | tree => exact whole.map fun _ _ same => .tree same
  | _ => exact textual _

/-! ### Start tags -/

/-- A field of the name, if there is one, is given values that are the same, and nothing else
changes. -/
inductive Assigns (values values' : FieldValues) : Option String → FieldValues → FieldValues → Prop
  | nothing : Assigns values values' none values values'
  | value {name : String} {value value' : Value} (same : value.Same value') :
      Assigns values values' (some name) (values.set name value) (values'.set name value')

variable {values values' : FieldValues}

theorem Assigns.fields {name? : Option String} {after after' : FieldValues}
    (assigns : Assigns values values' name? after after') (same : FieldsSame values values') :
    FieldsSame after after' := by
  cases assigns with
  | nothing => exact same
  | value valueSame => exact same.set _ valueSame

theorem Assigns.get?_of_ne {name? : Option String} {after after' : FieldValues}
    (assigns : Assigns values values' name? after after') {name : String} (other : name? ≠ some name) :
    after.get? name = values.get? name ∧ after'.get? name = values'.get? name := by
  cases assigns with
  | nothing => exact ⟨rfl, rfl⟩
  | value =>
      have different := fun same => other (congrArg some same)
      rw [OrderedMap.get?_set, OrderedMap.get?_set, if_neg different, if_neg different]
      exact ⟨rfl, rfl⟩

theorem Assigns.swap {first second : Option String} {between between' after after' : FieldValues}
    (same : FieldsSame values values') (assignsFirst : Assigns values between' first between after')
    (assignsSecond : Assigns between values' second after between')
    (apart : ∀ name, first = some name → second ≠ some name) : FieldsSame after after' := by
  cases assignsFirst with
  | nothing => exact assignsSecond.fields same
  | @value name value value' valueSame =>
      cases assignsSecond with
      | nothing => exact same.set _ valueSame
      | @value other otherValue otherValue' otherSame =>
          have different : name ≠ other := fun isSame => apart name rfl (congrArg some isSame.symm)
          intro bound
          rw [OrderedMap.get?_set, OrderedMap.get?_set, OrderedMap.get?_set, OrderedMap.get?_set]
          by_cases isOther : other = bound
          · rw [if_pos isOther, if_pos isOther, if_neg (isOther ▸ different)]
            exact .some otherSame
          · rw [if_neg isOther, if_neg isOther]
            split
            · exact .some valueSame
            · exact same bound

private theorem readAttributes_cons (frame : Frame) (tag : Tag) (atRoot : Bool) (values : FieldValues)
    (pair : String × String) (rest : List (String × String)) :
    context.readAttributes frame tag atRoot values (pair :: rest) =
      (context.readAttributes frame tag atRoot values [pair] >>= fun values =>
        context.readAttributes frame tag atRoot values rest) := by
  obtain ⟨name, raw⟩ := pair
  simp only [Context.readAttributes]
  split
  · cases frame.layout.attributeField? name with
    | none =>
        simp only
        split
        · rfl
        · rw [pure_bind]
    | some field =>
        simp only
        cases field.declared.scalarType? with
        | none => simp only [pure_bind]
        | some type => simp only [bind_assoc, pure_bind]
  · rw [pure_bind]

section Attributes

variable {frame frame' : Frame} (layoutEq : frame'.layout = frame.layout) (tag tag' : Tag)
  (atRoot : Bool)
include layoutEq

private theorem carries_attribute (values values' : FieldValues) (pair : String × String) :
    Carries (fun after after' => ∃ name?, (∀ name, name? = some name →
        ∃ field, frame.layout.attributeField? pair.1 = some field ∧ field.name = name) ∧
        Assigns values values' name? after after')
      (context.readAttributes frame tag atRoot values [pair])
      (context.readAttributes frame' tag' atRoot values' [pair]) := by
  have nothing : Carries (fun after after' => ∃ name?, (∀ name, name? = some name →
        ∃ field, frame.layout.attributeField? pair.1 = some field ∧ field.name = name) ∧
        Assigns values values' name? after after') (pure values : Read FieldValues) (pure values') :=
    .pure ⟨none, nofun, .nothing⟩
  obtain ⟨name, raw⟩ := pair
  simp only [Context.readAttributes]
  rw [layoutEq]
  split
  · cases known : frame.layout.attributeField? name with
    | none =>
        simp only
        split
        · exact .throw
        · rw [known] at nothing
          exact nothing
    | some field =>
        rw [known] at nothing
        simp only
        cases field.declared.scalarType? with
        | none => exact nothing
        | some type =>
            apply (Carries.lift (expects_coerce _ _ _ raw _ frame'.location)).bind
            rintro value _ rfl
            apply (Carries.modify _ _).bind
            intro _ _ _
            exact .pure ⟨some field.name, fun _ same => ⟨field, rfl, Option.some_inj.1 same⟩,
              .value (.refl value)⟩
  · exact nothing

private theorem carries_attributes_inOrder (attributes : List (String × String))
    (same : FieldsSame values values') :
    Carries FieldsSame (context.readAttributes frame tag atRoot values attributes)
      (context.readAttributes frame' tag' atRoot values' attributes) := by
  induction attributes generalizing values values' with
  | nil => exact .pure same
  | cons pair rest ih =>
      rw [readAttributes_cons frame, readAttributes_cons frame']
      apply (carries_attribute layoutEq tag tag' atRoot values values' pair).bind
      intro after after' assigns
      obtain ⟨_, _, assigns⟩ := assigns
      exact ih (assigns.fields same)

private theorem carries_two_attributes (names : DistinctNames frame.layout)
    {first second : String × String}
    (apart : first.1 ≠ second.1) (same : FieldsSame values values') :
    Carries FieldsSame
      (context.readAttributes frame tag atRoot values [first] >>= fun values =>
        context.readAttributes frame tag atRoot values [second])
      (context.readAttributes frame' tag' atRoot values' [second] >>= fun values =>
        context.readAttributes frame' tag' atRoot values [first]) := by
  intro session session' found runs
  obtain ⟨between, _, firstRuns, secondRuns⟩ := Read.bind_eq_ok runs
  obtain ⟨⟨between', later⟩, secondRuns', second?, ofSecond, assignsSecond⟩ :=
    carries_attribute layoutEq tag tag' atRoot between values' second _ session' _ secondRuns
  obtain ⟨found', firstRuns', first?, ofFirst, assignsFirst⟩ :=
    carries_attribute layoutEq tag tag' atRoot values between' first _ later _ firstRuns
  refine ⟨found', ?_, assignsFirst.swap same assignsSecond ?_⟩
  · rw [Read.bind_of_ok secondRuns']
    exact firstRuns'
  · intro name isFirst isSecond
    obtain ⟨field, known, nameEq⟩ := ofFirst name isFirst
    obtain ⟨other, otherKnown, otherName⟩ := ofSecond name isSecond
    have sameField := names.eq_of_name_eq (attributeField?_mem known).1
      (attributeField?_mem otherKnown).1 (nameEq.trans otherName.symm)
    have tagEq := List.find?_some known
    have otherTag := List.find?_some otherKnown
    simp only [Bool.and_eq_true, beq_iff_eq] at tagEq otherTag
    rw [← sameField] at otherTag
    exact apart (tagEq.2.symm.trans otherTag.2)

private theorem carries_attributes_inAnyOrder (names : DistinctNames frame.layout)
    {attributes attributes' : List (String × String)} (perm : attributes.Perm attributes')
    (distinct : (attributes.map (·.1)).Nodup) (same : FieldsSame values values') :
    Carries FieldsSame (context.readAttributes frame tag atRoot values attributes)
      (context.readAttributes frame' tag' atRoot values' attributes') := by
  induction perm generalizing values values' frame frame' tag tag' with
  | nil => exact .pure same
  | cons pair _ ih =>
      rw [readAttributes_cons frame, readAttributes_cons frame']
      apply (carries_attribute layoutEq tag tag' atRoot values values' pair).bind
      intro after after' assigns
      obtain ⟨_, _, assigns⟩ := assigns
      exact ih layoutEq _ _ names distinct.of_cons (assigns.fields same)
  | swap second first rest =>
      have fresh : first.1 ∉ second.1 :: rest.map (·.1) := (List.nodup_cons.1 distinct).1
      have apart : first.1 ≠ second.1 := fun same => fresh (List.mem_cons.2 (.inl same))
      have two (frame : Frame) (tag : Tag) (values : FieldValues) (first second : String × String) :
          context.readAttributes frame tag atRoot values (first :: second :: rest) =
            ((context.readAttributes frame tag atRoot values [first] >>= fun values =>
              context.readAttributes frame tag atRoot values [second]) >>= fun values =>
                context.readAttributes frame tag atRoot values rest) := by
        rw [readAttributes_cons, bind_assoc]
        congr 1
        funext values
        rw [readAttributes_cons]
      rw [two, two]
      apply (carries_two_attributes layoutEq tag tag' atRoot names apart same).bind
      intro after after' afterSame
      exact carries_attributes_inOrder layoutEq tag tag' atRoot rest afterSame
  | trans perm _ ih ih' =>
      have distinct' := (perm.map _).nodup_iff.1 distinct
      exact (ih rfl tag tag names distinct (.refl values)).trans (ih' layoutEq _ _ names distinct' same)
        fun _ _ _ first second => FieldsSame.trans first second

private theorem carries_readAttributes (names : DistinctNames frame.layout)
    {attributes attributes' : List (String × String)} (order : SameAttributes attributes attributes')
    (same : FieldsSame values values') :
    Carries FieldsSame (context.readAttributes frame tag atRoot values attributes)
      (context.readAttributes frame' tag' atRoot values' attributes') := by
  cases order with
  | inOrder => exact carries_attributes_inOrder layoutEq tag tag' atRoot attributes same
  | inAnyOrder distinct perm =>
      exact carries_attributes_inAnyOrder layoutEq tag tag' atRoot names perm distinct same

end Attributes

private theorem any_eq_of_sameAttributes {attributes attributes' : List (String × String)}
    (same : SameAttributes attributes attributes') (test : String × String → Bool) :
    attributes.any test = attributes'.any test := by
  cases same with
  | inOrder => rfl
  | inAnyOrder _ perm =>
      rw [Bool.eq_iff_iff, List.any_eq_true, List.any_eq_true]
      simp only [perm.mem_iff]

section Start

variable {tag tag' : Tag} (tags : tag.Resembles tag')
include tags

private theorem expects_requireAttributes_resembling {frame frame' : Frame}
    (layoutEq : frame'.layout = frame.layout) :
    Expects none (· = ·) (context.requireAttributes frame tag)
      (context.requireAttributes frame' tag') := by
  unfold Context.requireAttributes
  simp only [layoutEq, any_eq_of_sameAttributes tags.attributes]
  split
  · exact .failed
  · exact .ok trivial

structure BegunSame (schema : Schema) (className : String) (begun begun' : Frame × FieldValues) :
    Prop where
  layout?_eq : schema.layout? className = some begun.1.layout
  layout_eq : begun'.1.layout = begun.1.layout
  values : FieldsSame begun.2 begun'.2

variable (distinct : DistinctFields context.schema)
include distinct

private theorem carries_beginEntity (className : String) (atRoot : Bool) :
    Carries (BegunSame context.schema className) (context.beginEntity className tag atRoot)
      (context.beginEntity className tag' atRoot) := by
  unfold Context.beginEntity
  cases foundEq : context.schema.find? className with
  | none => exact .throw
  | some resolved =>
      have names := distinct resolved (List.mem_of_find?_eq_some foundEq)
      simp only
      split
      · exact .throw
      · have newIds : Carries (fun _ _ => True) (newEntity (context.locate tag.position))
            (newEntity (context.locate tag'.position)) := fun _ _ => .ok trivial
        apply newIds.bind
        intro id id' _
        apply (Carries.lift (expects_defaultValues resolved.layout _ (context.locate tag'.position))).bind
        rintro values _ rfl
        let frame : Frame := ⟨id, resolved.layout, context.locate tag.position⟩
        let frame' : Frame := ⟨id', resolved.layout, context.locate tag'.position⟩
        have sameLayout : frame'.layout = frame.layout := rfl
        have attributes := @carries_readAttributes context values values frame frame' sameLayout tag
          tag' atRoot names _ _ tags.attributes (.refl values)
        apply attributes.bind
        intro after after' same
        apply (Carries.lift (expects_requireAttributes_resembling tags sameLayout)).bind
        intro _ _ _
        refine .pure ⟨?_, rfl, same⟩
        rw [Schema.layout?, foundEq]
        rfl

end Start

private theorem carries_readContentField {frame frame' : Frame} {values values' : FieldValues}
    (same : FieldsSame values values') (field : TaggedField) {tag tag' : Tag}
    (tags : tag.Resembles tag') {inside inside' : Content} (resembles : inside.Resembles inside') :
    Carries FieldsSame (context.readContentField frame values field tag inside)
      (context.readContentField frame' values' field tag' inside') := by
  unfold Context.readContentField
  cases field.declared.scalarType? with
  | none =>
      apply (Carries.lift (expects_passContent context resembles)).bind
      intro _ _ _
      exact .pure same
  | some type =>
      apply (Carries.lift (expects_scalar_resembling field.declared type tags resembles)).bind
      intro value value' valueSame
      apply (Carries.modify _ _).bind
      intro _ _ _
      exact .pure (same.set field.name valueSame)

/-! ### Elements by their roles -/

/-- Contents of an element of the role are read alike, from values on that are the same. -/
def RoleCarries (context : Context) (role : Role) (inside inside' : Content) : Prop :=
  match role with
  | .entity layout => ∀ frame frame' values values' seen seen', frame.layout = layout →
      frame'.layout = layout → FieldsSame values values' → (∀ tag, tag ∈ seen ↔ tag ∈ seen') →
      Carries FieldsSame (context.readChildren frame values seen inside)
        (context.readChildren frame' values' seen' inside')
  | .items itemTag type => ∀ id id' field collection holder holder', field.itemTag = itemTag →
      holder.Same holder' →
      Carries Value.Same (context.readItems id field collection type holder inside)
        (context.readItems id' field collection type holder' inside')
  | .entries encoding itemTag => ∀ id id' field entries, field.itemTag = itemTag →
      Carries (· = ·) (context.readEntries id field encoding entries inside)
        (context.readEntries id' field encoding entries inside')
  | .entry => ∀ field parts position',
      Expects none (fun found found' => ∃ position', found' = { found with position := position' })
        (context.entryParts field parts inside)
        (context.entryParts field { parts with position := position' } inside')

structure ElementCarries (context : Context) (role? : Option Role) (inside inside' : Content) :
    Prop where
  walked : ∀ role, role? = some role → RoleCarries context role inside inside'
  whole : role? = none → inside.Resembles inside'

section Elements

variable {inside inside' : Content} {tag tag' : Tag} (tags : tag.Resembles tag')
variable (distinct : DistinctFields context.schema)
include tags distinct

private theorem carries_entity {className : String}
    (element : ElementCarries context (entityRole? context.schema className) inside inside')
    (atRoot : Bool) :
    Carries Entity.Same (context.readEntity className tag inside atRoot)
      (context.readEntity className tag' inside' atRoot) := by
  apply (carries_beginEntity tags distinct className atRoot).bind
  intro begun begun' begunSame
  obtain ⟨frame, values⟩ := begun
  obtain ⟨frame', values'⟩ := begun'
  obtain ⟨layout?Eq, layoutEq, same⟩ := begunSame
  simp only at layout?Eq layoutEq same ⊢
  rw [layoutEq]
  cases contentEq : frame.layout.contentField? with
  | none =>
      have role := entityRole?_eq_some_iff.2 ⟨frame.layout, layout?Eq, contentEq, rfl⟩
      have children := element.walked _ role frame frame' values values' [] [] rfl layoutEq same
        fun _ => Iff.rfl
      apply Carries.bind children
      intro after after' afterSame
      exact .pure ⟨rfl, afterSame⟩
  | some field =>
      have role : entityRole? context.schema className = none := by
        simp only [entityRole?, layout?Eq, contentEq]
        rfl
      apply (carries_readContentField same field tags (element.whole role)).bind
      intro after after' afterSame
      exact .pure ⟨rfl, afterSame⟩

private theorem carries_item (field : TaggedField) {type : ItemType}
    (element : ElementCarries context (itemRole? context.schema type) inside inside') :
    Carries Value.Same (readItem context field type tag inside)
      (readItem context field type tag' inside') := by
  cases type with
  | entity className =>
      exact (carries_entity tags distinct element false).map fun entity entity' same =>
        Graph.Value.same_entity_iff.2 ⟨entity', rfl, same⟩
  | scalar type =>
      exact .lift (expects_scalar_resembling field.declared type tags (element.whole rfl))

omit tags distinct in
private theorem carries_addItem (id id' : EntityId) (field : TaggedField) (collection : Collection)
    (type : ItemType) {holder holder' value value' : Value} (same : holder.Same holder')
    (valueSame : value.Same value') :
    Carries Value.Same (context.addItem id field collection type tag holder value)
      (context.addItem id' field collection type tag' holder' value') := by
  unfold Context.addItem
  obtain ⟨pushed, added⟩ := same.push valueSame
  generalize holder.push value = grown at pushed added
  generalize holder'.push value' = grown' at pushed added
  obtain ⟨holder, place⟩ := grown
  obtain ⟨holder', place'⟩ := grown'
  simp only at pushed added
  rw [← added]
  cases place with
  | none => exact .pure pushed
  | some position =>
      simp only
      split
      · apply (Carries.modify _ _).bind
        intro _ _ _
        exact .pure pushed
      · exact .pure pushed

omit tags distinct in
private theorem carries_recordCollection (id id' : EntityId) (field : String) (type : ItemType)
    (location location' : Location) :
    Carries (fun _ _ => True) (recordCollection id field type location)
      (recordCollection id' field type location') := by
  unfold recordCollection
  split
  · exact .modify _ _
  · exact .pure trivial

section Fields

variable {frame frame' : Frame} {values values' : FieldValues} {field : TaggedField}

omit tags distinct in
private theorem carries_keepItem
    (bound : Option.Rel Value.Same (values.get? field.name) (values'.get? field.name))
    (collection : Collection) (type : ItemType) {value value' : Value} (valueSame : value.Same value') :
    Carries (Assigns values values' (some field.name))
      (context.keepItem frame values field collection type tag value)
      (context.keepItem frame' values' field collection type tag' value') := by
  apply (carries_recordCollection frame.id frame'.id field.name type _
    (context.locate tag'.position)).bind
  intro _ _ _
  have same : ((values.get? field.name).getD (.collection collection [])).Same
      ((values'.get? field.name).getD (.collection collection [])) := by
    generalize values.get? field.name = bound at bound
    generalize values'.get? field.name = bound' at bound
    cases bound with
    | none => exact .refl _
    | some same => exact same
  apply (carries_addItem frame.id frame'.id field collection type same valueSame).bind
  intro holder holder' holderSame
  exact .pure (.value holderSame)

omit tags distinct in
private theorem carries_readMap (encoding : MapEncoding)
    (entries : RoleCarries context (.entries encoding field.itemTag) inside inside') :
    Carries (Assigns values values' (some field.name))
      (context.readMap frame values field encoding tag inside)
      (context.readMap frame' values' field encoding tag' inside') := by
  apply (Carries.modify _ _).bind
  intro _ _ _
  apply (entries frame.id frame'.id field [] rfl).bind
  rintro found _ rfl
  exact .pure (.value (.refl _))

theorem carries_field
    (element : ElementCarries context (fieldRole? context.schema field) inside inside')
    (bound : Option.Rel Value.Same (values.get? field.name) (values'.get? field.name)) :
    Carries (Assigns values values' (some field.name)) (context.readField frame values field tag inside)
      (context.readField frame' values' field tag' inside') := by
  unfold fieldRole? at element
  unfold Context.readField Context.field
  cases kind : field.declared.kind with
  | scalar type =>
      rw [kind] at element
      apply (Carries.lift
        (expects_scalar_resembling field.declared type tags (element.whole rfl))).bind
      intro value value' same
      apply (Carries.modify _ _).bind
      intro _ _ _
      exact .pure (.value same)
  | one target =>
      rw [kind] at element
      apply (carries_entity tags distinct element false).bind
      intro entity entity' same
      exact .pure (.value (Graph.Value.same_entity_iff.2 ⟨entity', rfl, same⟩))
  | many collection type wrapped =>
      rw [kind] at element
      cases wrapped with
      | true =>
          apply (carries_recordCollection frame.id frame'.id field.name type _
            (context.locate tag'.position)).bind
          intro _ _ _
          apply (element.walked _ rfl frame.id frame'.id field collection _ _ rfl (.refl _)).bind
          intro holder holder' same
          exact .pure (.value same)
      | false =>
          apply (carries_item tags distinct field element).bind
          intro value value' same
          exact carries_keepItem bound collection type same
  | map encoding =>
      rw [kind] at element
      exact carries_readMap encoding (element.walked _ rfl)

end Fields

end Elements

/-! ### Contents by their roles -/

theorem RoleCarries.closed (role : Role) (encoding encoding' : String) :
    RoleCarries context role (.closed encoding) (.closed encoding') := by
  cases role with
  | entity layout => exact fun _ _ _ _ _ _ _ _ same _ => .pure same
  | items itemTag type => exact fun _ _ _ _ _ _ _ same => .pure same
  | entries encoding itemTag => exact fun _ _ _ _ _ => .pure rfl
  | entry => exact fun _ _ _ => .ok ⟨_, rfl⟩

theorem RoleCarries.broken (role : Role) (texts : List (Position × String)) (ending : Markup.Ending)
    (content : Content) : RoleCarries context role (Content.behind texts (.broken ending)) content := by
  cases role with
  | entity layout =>
      intro frame frame' values values' seen seen' _ _ _ _
      rw [loop_behind context (context.readChildren frame values seen) fun _ _ _ => rfl]
      exact .throwAfter
  | items itemTag type =>
      intro id id' field collection holder holder' _ _
      rw [loop_behind context (context.readItems id field collection type holder) fun _ _ _ => rfl]
      exact .throwAfter
  | entries encoding itemTag =>
      intro id id' field entries _
      rw [loop_behind context (context.readEntries id field encoding entries) fun _ _ _ => rfl]
      exact .throwAfter
  | entry =>
      intro field parts position'
      rw [entryParts_behind]
      cases context.passTexts texts <;> exact .failed

theorem RoleCarries.texts {role : Role} {rest rest' : Content}
    (later : RoleCarries context role rest rest') {texts texts' : List (Position × String)}
    (same : Content.joined texts = Content.joined texts') :
    RoleCarries context role (Content.behind texts rest) (Content.behind texts' rest') := by
  have passed := expects_passTexts context same
  cases role with
  | entity layout =>
      intro frame frame' values values' seen seen' isLayout isLayout' valuesSame seenSame
      have loop (frame : Frame) (values : FieldValues) (seen : List String) :=
        loop_behind context (context.readChildren frame values seen) fun _ _ _ => rfl
      rw [loop, loop]
      apply (Carries.lift passed).bind
      intro _ _ _
      exact later frame frame' values values' seen seen' isLayout isLayout' valuesSame seenSame
  | items itemTag type =>
      intro id id' field collection holder holder' itemEq holderSame
      have loop (id : EntityId) (holder : Value) :=
        loop_behind context (context.readItems id field collection type holder) fun _ _ _ => rfl
      rw [loop, loop]
      apply (Carries.lift passed).bind
      intro _ _ _
      exact later id id' field collection holder holder' itemEq holderSame
  | entries encoding itemTag =>
      intro id id' field entries itemEq
      have loop (id : EntityId) :=
        loop_behind context (context.readEntries id field encoding entries) fun _ _ _ => rfl
      rw [loop, loop]
      apply (Carries.lift passed).bind
      intro _ _ _
      exact later id id' field entries itemEq
  | entry =>
      intro field parts position'
      rw [entryParts_behind, entryParts_behind]
      exact passed.after fun _ _ _ => later field parts position'

private theorem expects_takeTag_same (field : TaggedField) {seen seen' : List String} (tag tag' : Tag)
    (same : ∀ name, name ∈ seen ↔ name ∈ seen') :
    Expects none (fun found found' => ∀ name, name ∈ found ↔ name ∈ found')
      (context.takeTag field seen tag) (context.takeTag field seen' tag') := by
  have sameTaken : seen.contains field.tag = seen'.contains field.tag := by
    rw [Bool.eq_iff_iff, List.contains_iff_mem, List.contains_iff_mem, same]
  unfold Context.takeTag
  rw [sameTaken]
  split
  · exact .ok same
  · split
    · exact .failed
    · apply Expects.ok
      intro name
      rw [List.mem_cons, List.mem_cons, same]

section Step

variable {inside inside' rest rest' : Content} {tag tag' : Tag} (tags : tag.Resembles tag')
include tags

private theorem carries_readEntry (id id' : EntityId) (field : TaggedField) (encoding : MapEncoding)
    (entries : OrderedMap String String)
    (element : ElementCarries context
      ((Role.entries encoding field.itemTag).child? context.schema tag.name) inside inside') :
    Carries (· = ·) (context.readEntry id field encoding entries tag inside)
      (context.readEntry id' field encoding entries tag' inside') := by
  cases encoding with
  | inline =>
      simp only [Context.readEntry, tags.name_eq]
      apply (Carries.lift (expects_textOf context (element.whole rfl))).bind
      rintro text _ rfl
      apply (Carries.modify _ _).bind
      intro _ _ _
      exact .pure rfl
  | explode =>
      simp only [Context.readEntry, tags.name_eq]
      by_cases isEntry : tag.name = field.itemTag
      · simp only [Role.child?, isEntry, if_true] at element ⊢
        apply (Carries.lift (element.walked _ rfl field.declared {} none)).bind
        rintro parts _ ⟨position, rfl⟩
        apply (Carries.modify _ _).bind
        intro _ _ _
        exact .pure rfl
      · simp only [Role.child?, isEntry, if_false] at element ⊢
        apply (Carries.lift (expects_passElement context tag tag' (element.whole rfl))).bind
        intro _ _ _
        exact .pure rfl

variable (distinct : DistinctFields context.schema)
include distinct

theorem RoleCarries.element {role : Role}
    (element : ElementCarries context (role.child? context.schema tag.name) inside inside')
    (later : RoleCarries context role rest rest') :
    RoleCarries context role (.element tag inside rest) (.element tag' inside' rest') := by
  cases role with
  | entity layout =>
      rintro frame frame' values values' seen seen' rfl layoutEq valuesSame seenSame
      simp only [Context.readChildren, tags.name_eq, layoutEq]
      cases routes : frame.layout.elementField? tag.name with
      | none =>
          have noRole : (Role.entity frame.layout).child? context.schema tag.name = none := by
            simp only [Role.child?, routes, Option.bind_none]
          apply (Carries.lift (expects_passElement context tag tag' (element.whole noRole))).bind
          intro _ _ _
          exact later frame frame' values values' seen seen' rfl layoutEq valuesSame seenSame
      | some field =>
          simp only [Role.child?, routes, Option.bind_some] at element
          apply (Carries.lift (expects_takeTag_same field tag tag' seenSame)).bind
          intro taken taken' takenSame
          apply (@carries_field _ _ _ _ _ tags distinct frame frame' values values' field element
            (valuesSame field.name)).bind
          intro after after' assigns
          exact later frame frame' after after' taken taken' rfl layoutEq (assigns.fields valuesSame)
            takenSame
  | items itemTag type =>
      rintro id id' field collection holder holder' rfl holderSame
      simp only [Context.readItems, tags.name_eq]
      by_cases isItem : tag.name = field.itemTag
      · simp only [Role.child?, if_pos isItem] at element
        simp only [if_pos isItem]
        apply (carries_item tags distinct field element).bind
        intro value value' same
        apply (carries_addItem id id' field collection type holderSame same).bind
        intro grown grown' grownSame
        exact later id id' field collection grown grown' rfl grownSame
      · simp only [Role.child?, if_neg isItem] at element
        simp only [if_neg isItem]
        apply (Carries.lift (expects_passElement context tag tag' (element.whole rfl))).bind
        intro _ _ _
        exact later id id' field collection holder holder' rfl holderSame
  | entries encoding itemTag =>
      rintro id id' field entries rfl
      apply (carries_readEntry tags id id' field encoding entries element).bind
      rintro found _ rfl
      exact later id id' field found rfl
  | entry =>
      intro field parts valuePosition
      apply Expects.after (expects_entryPart field parts valuePosition tags.name_eq (element.whole rfl))
      rintro found _ ⟨valuePosition, rfl⟩
      exact later field found valuePosition

end Step

section Contents

variable (distinct : DistinctFields context.schema)
include distinct

theorem resembles_carries {content content' : Content} (resembles : content.Resembles content')
    (role : Role) : RoleCarries context role content content' := by
  induction resembles generalizing role with
  | closed encoding encoding' => exact .closed role encoding encoding'
  | broken texts ending content => exact .broken role texts ending content
  | texts same _ ih => exact (ih role).texts same
  | element tags resemblesInside _ ihInside ih =>
      exact .element tags distinct ⟨fun inner _ => ihInside inner, fun _ => resemblesInside⟩ (ih role)

theorem resembles_element {inside inside' : Content} (resembles : inside.Resembles inside')
    (role? : Option Role) : ElementCarries context role? inside inside' :=
  ⟨fun role _ => resembles_carries distinct resembles role, fun _ => resembles⟩

/-- What is carried at the end of a path of elements that are read child by child is carried by all
of them. -/
theorem edited_carries {change : Content → Content → Prop} {path : List String}
    {content content' : Content} (edited : Content.Edited change path content content')
    {role final : Role} (leads : path.foldlM (Role.child? context.schema) role = some final)
    (changed : ∀ content content', change content content' →
      RoleCarries context final content content') :
    RoleCarries context role content content' := by
  induction edited generalizing role with
  | here isChanged =>
      cases leads
      exact changed _ _ isChanged
  | @text _ position position' text _ _ _ ih =>
      exact @RoleCarries.texts context _ _ _ (ih leads) [(position, text)] [(position', text)] rfl
  | after follows _ ih =>
      exact .element (Tag.resembles_at _ _) distinct (resembles_element distinct follows.resembles _)
        (ih leads)
  | inside _ follows ih =>
      rw [List.foldlM_cons] at leads
      obtain ⟨inner, known, leads⟩ := Option.bind_eq_some_iff.1 leads
      have element : ElementCarries context (some inner) _ _ :=
        ⟨fun role isRole => by cases isRole; exact ih leads, fun noRole => by cases noRole⟩
      rw [← known] at element
      exact .element (Tag.resembles_at _ _) distinct element
        (resembles_carries distinct follows.resembles role)

theorem readDocument_carries {className : String} {root root' : Tag} (tags : root.Resembles root')
    {inside inside' : Content}
    (element : ElementCarries context (entityRole? context.schema className) inside inside') :
    Expects none (fun graph graph' => graph.root.Same graph'.root)
      (context.readDocument className (.rooted root inside))
      (context.readDocument className (.rooted root' inside')) := by
  unfold Context.readDocument
  cases context.schema.layout? className with
  | none => exact .failed
  | some layout =>
      simp only [tags.name_eq]
      split
      · exact .failed
      · have entity := carries_entity tags distinct element true .initial .initial
        exact entity.after fun found found' same => .ok same

end Contents

end Trellis.Reading
