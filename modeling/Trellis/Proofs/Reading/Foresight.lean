import Trellis.Proofs.Markup.Edits
import Trellis.Proofs.Reading.Roles
import Trellis.Proofs.Reading.Runs

/-!
Reading a document again after a change.

If the first read succeeds, the second either comes to the same value with as many identities given
out, or ends with an error that can be told beforehand.  Where the second content follows the first
without a change, every part of the reader comes to the same value.
-/

namespace Trellis.Reading

open Trellis.Graph (Entity Tree Value)
open Markup (Content Document Ending Tag)
open Schema (Collection Field ItemType Layout MapEncoding ScalarType TaggedField)

/-- If the first outcome is a success, then the second is one with a related value, or the error that
is foreseen. -/
def Expects {α β : Type} (foreseen : Option ReadError) (related : α → β → Prop)
    (outcome : Except ReadError α) (outcome' : Except ReadError β) : Prop :=
  ∀ value, outcome = .ok value →
    match foreseen with
    | none => ∃ value', outcome' = .ok value' ∧ related value value'
    | some error => outcome' = .error error

namespace Expects

variable {α β γ δ : Type} {foreseen : Option ReadError} {related : α → β → Prop}
variable {outcome : Except ReadError α} {outcome' : Except ReadError β}

theorem ok {value : α} {value' : β} (holds : related value value') :
    Expects none related (.ok value) (.ok value') := by
  intro found same
  cases same
  exact ⟨value', rfl, holds⟩

theorem failed {error : ReadError} : Expects foreseen related (.error error) outcome' := by
  intro found impossible
  cases impossible

theorem refused {error : ReadError} : Expects (some error) related outcome (.error error) :=
  fun _ _ => rfl

theorem bind {later : Option ReadError} {related' : γ → δ → Prop} {next : α → Except ReadError γ}
    {next' : β → Except ReadError δ} (first : Expects foreseen related outcome outcome')
    (second : ∀ value value', related value value' →
      Expects later related' (next value) (next' value')) :
    Expects (foreseen.or later) related' (outcome >>= next) (outcome' >>= next') := by
  cases outcome with
  | error error => exact failed
  | ok value =>
      have here := first value rfl
      cases foreseen with
      | none =>
          obtain ⟨value', rfl, holds⟩ := here
          exact second value value' holds
      | some error =>
          rw [here]
          exact refused

theorem after {related' : γ → δ → Prop} {next : α → Except ReadError γ}
    {next' : β → Except ReadError δ} (first : Expects none related outcome outcome')
    (second : ∀ value value', related value value' →
      Expects foreseen related' (next value) (next' value')) :
    Expects foreseen related' (outcome >>= next) (outcome' >>= next') := by
  have step := first.bind second
  rwa [Option.none_or] at step

theorem andThen {related' : γ → δ → Prop} {next : α → Except ReadError γ}
    {next' : β → Except ReadError δ} (first : Expects foreseen related outcome outcome')
    (second : ∀ value value', related value value' →
      Expects none related' (next value) (next' value')) :
    Expects foreseen related' (outcome >>= next) (outcome' >>= next') := by
  have step := first.bind second
  rwa [Option.or_none] at step

theorem map {related' : γ → δ → Prop} {f : α → γ} {g : β → δ}
    (first : Expects foreseen related outcome outcome')
    (carries : ∀ value value', related value value' → related' (f value) (g value')) :
    Expects foreseen related' (f <$> outcome) (g <$> outcome') := by
  have step : Expects foreseen related' (outcome >>= fun value => .ok (f value))
      (outcome' >>= fun value => .ok (g value)) :=
    first.andThen fun value value' holds => .ok (carries value value' holds)
  cases outcome <;> cases outcome' <;> exact step

end Expects

/-- As `Expects`, from sessions on that have given out as many identities. -/
def Foresees {α β : Type} (foreseen : Option ReadError) (related : α → β → Prop) (read : Read α)
    (read' : Read β) : Prop :=
  ∀ session session', session.nextId = session'.nextId →
    Expects foreseen (fun found found' => related found.1 found'.1 ∧ found.2.nextId = found'.2.nextId)
      (read session) (read' session')

namespace Foresees

variable {α β γ δ : Type} {foreseen : Option ReadError} {related : α → β → Prop}
variable {read : Read α} {read' : Read β}

theorem pure {value : α} {value' : β} (holds : related value value') :
    Foresees none related (pure value) (pure value') :=
  fun _ _ sameId => .ok ⟨holds, sameId⟩

theorem throw {error : ReadError} : Foresees foreseen related (throw error) read' :=
  fun _ _ _ => .failed

theorem throwAfter {outcome : Except ReadError γ} {error : ReadError} :
    Foresees foreseen related (liftM outcome >>= fun _ => MonadExceptOf.throw error) read' := by
  intro session session' _
  cases outcome <;> exact .failed

theorem modify {change change' : Session → Session} (keeps : ∀ s, (change s).nextId = s.nextId)
    (keeps' : ∀ s, (change' s).nextId = s.nextId) :
    Foresees none (fun _ _ => True) (modify change) (modify change') := by
  intro session session' sameId
  refine .ok ⟨trivial, ?_⟩
  exact (keeps session).trans (sameId.trans (keeps' session').symm)

theorem lift {outcome : Except ReadError α} {outcome' : Except ReadError β}
    (expects : Expects foreseen related outcome outcome') :
    Foresees foreseen related (liftM outcome) (liftM outcome') := by
  intro session session' sameId
  rw [Read.lift_apply, Read.lift_apply]
  exact expects.map fun value value' holds => ⟨holds, sameId⟩

theorem bind {later : Option ReadError} {related' : γ → δ → Prop} {next : α → Read γ}
    {next' : β → Read δ} (first : Foresees foreseen related read read')
    (second : ∀ value value', related value value' →
      Foresees later related' (next value) (next' value')) :
    Foresees (foreseen.or later) related' (read >>= next) (read' >>= next') := by
  intro session session' sameId
  refine (first session session' sameId).bind ?_
  intro found found' holds
  exact second found.1 found'.1 holds.1 found.2 found'.2 holds.2

theorem after {related' : γ → δ → Prop} {next : α → Read γ} {next' : β → Read δ}
    (first : Foresees none related read read')
    (second : ∀ value value', related value value' →
      Foresees foreseen related' (next value) (next' value')) :
    Foresees foreseen related' (read >>= next) (read' >>= next') := by
  have step := first.bind second
  rwa [Option.none_or] at step

theorem andThen {related' : γ → δ → Prop} {next : α → Read γ} {next' : β → Read δ}
    (first : Foresees foreseen related read read')
    (second : ∀ value value', related value value' →
      Foresees none related' (next value) (next' value')) :
    Foresees foreseen related' (read >>= next) (read' >>= next') := by
  have step := first.bind second
  rwa [Option.or_none] at step

theorem map {related' : γ → δ → Prop} {f : α → γ} {g : β → δ}
    (first : Foresees foreseen related read read')
    (carries : ∀ value value', related value value' → related' (f value) (g value')) :
    Foresees foreseen related' (f <$> read) (g <$> read') := by
  rw [← bind_pure_comp, ← bind_pure_comp]
  exact first.andThen fun value value' holds => .pure (carries value value' holds)

end Foresees

variable (context : Context)

/-! ### Reading without classes -/

theorem expects_passContent {inside inside' : Content} (resembles : inside.Resembles inside') :
    Expects none (· = ·) (context.passContent inside) (context.passContent inside') := by
  unfold Context.passContent
  cases complete : inside.break? with
  | none =>
      rw [resembles.break?_eq_none complete]
      exact .ok rfl
  | some ending => exact .failed

theorem expects_passElement {inside inside' : Content} (tag tag' : Tag)
    (resembles : inside.Resembles inside') :
    Expects none (· = ·) (context.passElement tag inside) (context.passElement tag' inside') := by
  unfold Context.passElement
  split
  · exact .failed
  · exact expects_passContent context resembles

def Context.passTexts (context : Context) : List (Position × String) → Except ReadError Unit
  | [] => .ok ()
  | text :: texts => do
      context.passText text.1 text.2
      context.passTexts texts

/-- Whatever goes over texts one after the other goes over all in a row. -/
theorem loop_behind {α : Type} (loop : Content → Read α)
    (passes : ∀ position text rest, loop (.text position text rest) =
      (liftM (context.passText position text) >>= fun _ => loop rest))
    (texts : List (Position × String)) (rest : Content) :
    loop (Content.behind texts rest) =
      (liftM (context.passTexts texts) >>= fun _ => loop rest) := by
  induction texts with
  | nil =>
      rw [Context.passTexts, Read.lift_ok_bind]
      rfl
  | cons text texts ih =>
      change loop (.text text.1 text.2 (Content.behind texts rest)) = _
      rw [passes, ih, Context.passTexts, Read.lift_bind, bind_assoc]

theorem passText_eq_ok_iff {position : Position} {text : String} :
    context.passText position text = .ok () ↔
      (context.strict = true → Text.isBlankText text = true) := by
  unfold Context.passText
  cases context.strict <;> cases Text.isBlankText text <;> simp

private theorem passTexts_eq_ok_iff {texts : List (Position × String)} :
    context.passTexts texts = .ok () ↔
      (context.strict = true → Text.isBlankText (Content.joined texts) = true) := by
  induction texts with
  | nil => exact ⟨fun _ _ => rfl, fun _ => rfl⟩
  | cons text texts ih =>
      have both : context.passTexts (text :: texts) = .ok () ↔
          context.passText text.1 text.2 = .ok () ∧ context.passTexts texts = .ok () := by
        rw [Context.passTexts]
        cases context.passText text.1 text.2 <;> cases context.passTexts texts <;>
          simp [bind, Except.bind]
      have blank : Text.isBlankText (Content.joined (text :: texts)) =
          (Text.isBlankText text.2 && Text.isBlankText (Content.joined texts)) :=
        Text.isBlankText_append _ _
      rw [both, ih, passText_eq_ok_iff, blank, Bool.and_eq_true]
      exact forall_and.symm

theorem expects_passTexts {texts texts' : List (Position × String)}
    (same : Content.joined texts = Content.joined texts') :
    Expects none (· = ·) (context.passTexts texts) (context.passTexts texts') := by
  intro _ passes
  rw [passTexts_eq_ok_iff, same, ← passTexts_eq_ok_iff] at passes
  exact ⟨(), passes, rfl⟩

theorem textOf_behind (texts : List (Position × String)) (rest : Content) :
    context.textOf (Content.behind texts rest) =
      (Content.joined texts ++ ·) <$> context.textOf rest := by
  induction texts with
  | nil =>
      change context.textOf rest = ("" ++ ·) <$> context.textOf rest
      cases context.textOf rest with
      | error error => rfl
      | ok text => exact congrArg Except.ok String.empty_append.symm
  | cons text texts ih =>
      change (text.2 ++ ·) <$> context.textOf (Content.behind texts rest) = _
      rw [ih]
      cases context.textOf rest with
      | error error => rfl
      | ok later => exact congrArg Except.ok String.append_assoc.symm

theorem partsOf_behind (texts : List (Position × String)) (rest : Content) :
    context.partsOf (Content.behind texts rest) =
      (fun parts => (Content.joined texts ++ parts.1, parts.2)) <$> context.partsOf rest := by
  induction texts with
  | nil =>
      change context.partsOf rest = (fun parts => ("" ++ parts.1, parts.2)) <$> context.partsOf rest
      cases context.partsOf rest with
      | error error => rfl
      | ok parts => exact congrArg Except.ok (Prod.ext String.empty_append.symm rfl)
  | cons text texts ih =>
      change (context.partsOf (Content.behind texts rest) >>= fun parts =>
        pure (text.2 ++ parts.1, parts.2)) = _
      rw [ih]
      cases context.partsOf rest with
      | error error => rfl
      | ok parts =>
          exact congrArg Except.ok (Prod.ext String.append_assoc.symm rfl)

theorem expects_textOf {inside inside' : Content} (resembles : inside.Resembles inside') :
    Expects none (· = ·) (context.textOf inside) (context.textOf inside') := by
  induction resembles with
  | closed encoding encoding' => exact .ok rfl
  | broken texts ending content =>
      rw [textOf_behind]
      exact .failed
  | texts same _ ih =>
      rw [textOf_behind, textOf_behind]
      apply ih.map
      intro text text' sameText
      rw [same, sameText]
  | element _ _ _ _ _ => exact .failed

private theorem expects_partsOf {inside inside' : Content} (follows : inside.Follows inside') :
    Expects none (· = ·) (context.partsOf inside) (context.partsOf inside') := by
  induction follows with
  | closed encoding encoding' => exact .ok rfl
  | broken texts ending content =>
      rw [partsOf_behind]
      exact .failed
  | texts same _ ih =>
      rw [partsOf_behind, partsOf_behind]
      apply ih.map
      intro parts parts' sameParts
      rw [same, sameParts]
  | element _ _ ihInside ihRest =>
      apply ihInside.after
      rintro inner _ rfl
      apply ihRest.after
      rintro parts _ rfl
      exact .ok rfl

theorem expects_coerce (strict : Bool) (field : Field) (type : ScalarType) (raw : String)
    (location location' : Location) :
    Expects none (· = ·) (coerce strict field type raw location)
      (coerce strict field type raw location') := by
  unfold coerce
  simp only
  cases (scalarOf? field type (fieldText field raw)).or (if strict then none else fallback? type) with
  | none => exact .failed
  | some value => exact .ok rfl

private theorem expects_scalar (field : Field) (type : ScalarType) (tag : Tag) (position' : Position)
    {inside inside' : Content} (follows : inside.Follows inside') :
    Expects none (· = ·) (context.scalar field type tag inside)
      (context.scalar field type { tag with position := position' } inside') := by
  have textual (type : ScalarType) : Expects none (· = ·)
      (context.textOf inside >>= fun text =>
        coerce context.strict field type text (context.locate tag.position))
      (context.textOf inside' >>= fun text =>
        coerce context.strict field type text (context.locate position')) := by
    apply (expects_textOf context follows.resembles).after
    rintro text _ rfl
    exact expects_coerce context.strict field type text _ _
  have whole : Expects none (· = ·) (context.treeOf tag inside)
      (context.treeOf { tag with position := position' } inside') := by
    apply (expects_partsOf context follows).after
    rintro parts _ rfl
    exact .ok rfl
  cases type with
  | tree => exact whole.map fun tree tree' same => by rw [same]
  | _ => exact textual _

/-! ### Start tags -/

private theorem foresees_newEntity (location location' : Location) :
    Foresees none (· = ·) (newEntity location) (newEntity location') := by
  intro session session' sameId
  refine .ok ⟨?_, ?_⟩
  · exact congrArg EntityId.mk sameId
  · exact congrArg (· + 1) sameId

private theorem foresees_recordField (id : EntityId) (field : String) (location location' : Location) :
    Foresees none (fun _ _ => True) (recordField id field location)
      (recordField id field location') :=
  .modify (fun _ => rfl) fun _ => rfl

private theorem foresees_recordEntry (id : EntityId) (field : String) (key : EntryKey)
    (location location' : Location) :
    Foresees none (fun _ _ => True) (recordEntry id field key location)
      (recordEntry id field key location') :=
  .modify (fun _ => rfl) fun _ => rfl

theorem expects_defaultValues (layout : Layout) (location location' : Location) :
    Expects none (· = ·) (defaultValues layout location) (defaultValues layout location') := by
  have one (values : FieldValues) (field : TaggedField) :
      Expects none (· = ·) (withDefault location values field) (withDefault location' values field) := by
    unfold withDefault
    split
    · rename_i text type _ _
      split
      · exact .ok rfl
      · have coerced := expects_coerce false field.declared type text location location'
        exact coerced.map fun value value' same => by rw [same]
    · exact .ok rfl
  unfold defaultValues
  generalize ([] : FieldValues) = values
  induction layout.fields generalizing values with
  | nil => exact .ok rfl
  | cons field rest ih =>
      rw [List.foldlM_cons, List.foldlM_cons]
      apply (one values field).after
      rintro values _ rfl
      exact ih values

private theorem foresees_readAttributes (frame : Frame) (location' : Location) (tag : Tag)
    (position' : Position) (atRoot : Bool) (attributes : List (String × String))
    (values : FieldValues) :
    Foresees none (· = ·) (context.readAttributes frame tag atRoot values attributes)
      (context.readAttributes { frame with location := location' } { tag with position := position' }
        atRoot values attributes) := by
  induction attributes generalizing values with
  | nil => exact .pure rfl
  | cons pair rest ih =>
      obtain ⟨name, raw⟩ := pair
      simp only [Context.readAttributes]
      split
      · cases frame.layout.attributeField? name with
        | none =>
            simp only
            split
            · exact .throw
            · exact ih values
        | some field =>
            simp only
            cases field.declared.scalarType? with
            | none => exact ih values
            | some type =>
                apply (Foresees.lift (expects_coerce _ _ _ raw _ location')).after
                rintro value _ rfl
                apply (foresees_recordField frame.id field.name _ _).after
                intro _ _ _
                exact ih _
      · exact ih values

private theorem expects_requireAttributes (frame : Frame) (location' : Location) (tag : Tag)
    (position' : Position) :
    Expects none (· = ·) (context.requireAttributes frame tag)
      (context.requireAttributes { frame with location := location' }
        { tag with position := position' }) := by
  unfold Context.requireAttributes
  simp only
  split
  · exact .failed
  · exact .ok trivial

def BeginAlike (context : Context) (className : String) (begun begun' : Frame × FieldValues) : Prop :=
  context.schema.layout? className = some begun.1.layout ∧
    ∃ location', begun' = ({ begun.1 with location := location' }, begun.2)

private theorem foresees_beginEntity (className : String) (tag : Tag) (position' : Position)
    (atRoot : Bool) :
    Foresees none (BeginAlike context className) (context.beginEntity className tag atRoot)
      (context.beginEntity className { tag with position := position' } atRoot) := by
  unfold Context.beginEntity
  cases foundEq : context.schema.find? className with
  | none => exact .throw
  | some resolved =>
      simp only
      split
      · exact .throw
      · apply (foresees_newEntity _ (context.locate position')).after
        rintro id _ rfl
        apply (Foresees.lift (expects_defaultValues resolved.layout _
          (context.locate position'))).after
        rintro values _ rfl
        have attributes := foresees_readAttributes context
          ⟨id, resolved.layout, context.locate tag.position⟩ (context.locate position') tag position'
          atRoot tag.attributes values
        apply attributes.after
        rintro values _ rfl
        have required := expects_requireAttributes context
          ⟨id, resolved.layout, context.locate tag.position⟩ (context.locate position') tag position'
        apply (Foresees.lift required).after
        intro _ _ _
        refine .pure ⟨?_, _, rfl⟩
        rw [Schema.layout?, foundEq]
        rfl

private theorem foresees_readContentField (frame : Frame) (location' : Location) (values : FieldValues)
    (field : TaggedField) (tag : Tag) (position' : Position) {inside inside' : Content}
    (follows : inside.Follows inside') :
    Foresees none (· = ·) (context.readContentField frame values field tag inside)
      (context.readContentField { frame with location := location' } values field
        { tag with position := position' } inside') := by
  unfold Context.readContentField
  cases field.declared.scalarType? with
  | none =>
      apply (Foresees.lift (expects_passContent context follows.resembles)).after
      intro _ _ _
      exact .pure rfl
  | some type =>
      apply (Foresees.lift (expects_scalar context field.declared type tag position' follows)).after
      rintro value _ rfl
      apply (foresees_recordField frame.id field.name _ _).after
      intro _ _ _
      exact .pure rfl

/-! ### Elements by their roles -/

/-- What is foreseen for an element of the role, if its content is the second one instead of the
first. -/
def RoleForesees (foreseen : Option ReadError) (role : Role) (inside inside' : Content) : Prop :=
  match role with
  | .entity layout => ∀ frame location' values seen, frame.layout = layout →
      Foresees foreseen (· = ·) (context.readChildren frame values seen inside)
        (context.readChildren { frame with location := location' } values seen inside')
  | .items itemTag type => ∀ id field collection holder, field.itemTag = itemTag →
      Foresees foreseen (· = ·) (context.readItems id field collection type holder inside)
        (context.readItems id field collection type holder inside')
  | .entries encoding itemTag => ∀ id field entries, field.itemTag = itemTag →
      Foresees foreseen (· = ·) (context.readEntries id field encoding entries inside)
        (context.readEntries id field encoding entries inside')
  | .entry => ∀ field parts position',
      Expects foreseen (fun found found' => ∃ position', found' = { found with position := position' })
        (context.entryParts field parts inside)
        (context.entryParts field { parts with position := position' } inside')

/-- What is foreseen for an element that is read as the role, if as any.  One that is taken as a whole
or passed over must not have changed. -/
structure ElementForesees (foreseen : Option ReadError) (role? : Option Role)
    (inside inside' : Content) : Prop where
  walked : ∀ role, role? = some role → RoleForesees context foreseen role inside inside'
  whole : role? = none → foreseen = none ∧ inside.Follows inside'

section Elements

variable {context}
variable {foreseen : Option ReadError} {inside inside' : Content}

theorem foresees_entity {className : String}
    (element : ElementForesees context foreseen (entityRole? context.schema className) inside inside')
    (tag : Tag) (position' : Position) (atRoot : Bool) :
    Foresees foreseen (· = ·) (context.readEntity className tag inside atRoot)
      (context.readEntity className { tag with position := position' } inside' atRoot) := by
  apply (foresees_beginEntity context className tag position' atRoot).after
  rintro ⟨frame, values⟩ _ ⟨layoutEq, location', rfl⟩
  simp only
  cases contentEq : frame.layout.contentField? with
  | none =>
      have role := entityRole?_eq_some_iff.2 ⟨frame.layout, layoutEq, contentEq, rfl⟩
      have children := element.walked _ role frame location' values [] rfl
      apply Foresees.andThen children
      rintro values _ rfl
      exact .pure rfl
  | some field =>
      have role : entityRole? context.schema className = none := by
        simp only [entityRole?, layoutEq, contentEq]
        rfl
      obtain ⟨rfl, follows⟩ := element.whole role
      have content := foresees_readContentField context frame location' values field tag position'
        follows
      apply content.after
      rintro values _ rfl
      exact .pure rfl

abbrev readItem (context : Context) (field : TaggedField) (type : ItemType) (tag : Tag)
    (inside : Content) : Read Value :=
  context.item field type tag inside (context.childrenIn inside)

private theorem foresees_item (field : TaggedField) {type : ItemType}
    (element : ElementForesees context foreseen (itemRole? context.schema type) inside inside')
    (tag : Tag) (position' : Position) :
    Foresees foreseen (· = ·) (readItem context field type tag inside)
      (readItem context field type { tag with position := position' } inside') := by
  cases type with
  | entity className =>
      exact (foresees_entity element tag position' false).map fun _ _ same => by rw [same]
  | scalar type =>
      obtain ⟨rfl, follows⟩ := element.whole rfl
      exact .lift (expects_scalar context field.declared type tag position' follows)

private theorem foresees_addItem (id : EntityId) (field : TaggedField) (collection : Collection)
    (type : ItemType) (tag : Tag) (position' : Position) (holder value : Value) :
    Foresees none (· = ·) (context.addItem id field collection type tag holder value)
      (context.addItem id field collection type { tag with position := position' } holder value) := by
  unfold Context.addItem
  obtain ⟨pushed, added⟩ := holder.push value
  cases added with
  | none => exact .pure rfl
  | some position =>
      simp only
      split
      · apply (foresees_recordEntry id field.name _ _ _).after
        intro _ _ _
        exact .pure rfl
      · exact .pure rfl

private theorem foresees_recordCollection (id : EntityId) (field : String) (type : ItemType)
    (location location' : Location) :
    Foresees none (fun _ _ => True) (recordCollection id field type location)
      (recordCollection id field type location') := by
  unfold recordCollection
  split
  · exact foresees_recordField id field location location'
  · exact .pure trivial

private theorem foresees_keepItem (frame : Frame) (location' : Location) (values : FieldValues)
    (field : TaggedField) (collection : Collection) (type : ItemType) (tag : Tag)
    (position' : Position) (value : Value) :
    Foresees none (· = ·) (context.keepItem frame values field collection type tag value)
      (context.keepItem { frame with location := location' } values field collection type
        { tag with position := position' } value) := by
  apply (foresees_recordCollection frame.id field.name type _ (context.locate position')).after
  intro _ _ _
  apply (foresees_addItem frame.id field collection type tag position' _ value).after
  rintro holder _ rfl
  exact .pure rfl

private theorem foresees_readMap (frame : Frame) (location' : Location) (values : FieldValues)
    (field : TaggedField) (encoding : MapEncoding) (tag : Tag) (position' : Position)
    (entries : RoleForesees context foreseen (.entries encoding field.itemTag) inside inside') :
    Foresees foreseen (· = ·) (context.readMap frame values field encoding tag inside)
      (context.readMap { frame with location := location' } values field encoding
        { tag with position := position' } inside') := by
  apply (foresees_recordField frame.id field.name _ (context.locate position')).after
  intro _ _ _
  apply (entries frame.id field [] rfl).andThen
  rintro found _ rfl
  exact .pure rfl

private theorem foresees_field (frame : Frame) (location' : Location) (values : FieldValues)
    {field : TaggedField}
    (element : ElementForesees context foreseen (fieldRole? context.schema field) inside inside')
    (tag : Tag) (position' : Position) :
    Foresees foreseen (· = ·) (context.readField frame values field tag inside)
      (context.readField { frame with location := location' } values field
        { tag with position := position' } inside') := by
  unfold fieldRole? at element
  unfold Context.readField Context.field
  cases kind : field.declared.kind with
  | scalar type =>
      rw [kind] at element
      obtain ⟨rfl, follows⟩ := element.whole rfl
      apply (Foresees.lift (expects_scalar context field.declared type tag position' follows)).after
      rintro value _ rfl
      apply (foresees_recordField frame.id field.name _ _).after
      intro _ _ _
      exact .pure rfl
  | one target =>
      rw [kind] at element
      apply (foresees_entity element tag position' false).andThen
      rintro entity _ rfl
      exact .pure rfl
  | many collection type wrapped =>
      rw [kind] at element
      cases wrapped with
      | true =>
          apply (foresees_recordCollection frame.id field.name type _ (context.locate position')).after
          intro _ _ _
          apply (element.walked _ rfl frame.id field collection _ rfl).andThen
          rintro holder _ rfl
          exact .pure rfl
      | false =>
          apply (foresees_item field element tag position').andThen
          rintro value _ rfl
          exact foresees_keepItem frame location' values field collection type tag position' value
  | map encoding =>
      rw [kind] at element
      exact foresees_readMap frame location' values field encoding tag position'
        (element.walked _ rfl)

/-! ### Contents by their roles -/

theorem RoleForesees.closed (role : Role) (encoding encoding' : String) :
    RoleForesees context none role (.closed encoding) (.closed encoding') := by
  cases role with
  | entity layout => exact fun _ _ _ _ _ => .pure rfl
  | items itemTag type => exact fun _ _ _ _ _ => .pure rfl
  | entries encoding itemTag => exact fun _ _ _ _ => .pure rfl
  | entry => exact fun _ _ _ => .ok ⟨_, rfl⟩

theorem entryParts_behind (field : Field) (parts : EntryParts) (texts : List (Position × String))
    (rest : Content) :
    context.entryParts field parts (Content.behind texts rest) =
      (context.passTexts texts >>= fun _ => context.entryParts field parts rest) := by
  induction texts with
  | nil => rfl
  | cons text texts ih =>
      change (context.passText text.1 text.2 >>= fun _ =>
        context.entryParts field parts (Content.behind texts rest)) = _
      rw [ih, Context.passTexts, bind_assoc]

theorem RoleForesees.broken (role : Role) (texts : List (Position × String)) (ending : Ending)
    (content : Content) :
    RoleForesees context foreseen role (Content.behind texts (.broken ending)) content := by
  cases role with
  | entity layout =>
      intro frame location' values seen _
      rw [loop_behind context (context.readChildren frame values seen) fun _ _ _ => rfl]
      exact .throwAfter
  | items itemTag type =>
      intro id field collection holder _
      rw [loop_behind context (context.readItems id field collection type holder) fun _ _ _ => rfl]
      exact .throwAfter
  | entries encoding itemTag =>
      intro id field entries _
      rw [loop_behind context (context.readEntries id field encoding entries) fun _ _ _ => rfl]
      exact .throwAfter
  | entry =>
      intro field parts position'
      rw [entryParts_behind]
      cases context.passTexts texts <;> exact .failed

theorem RoleForesees.texts {role : Role} {rest rest' : Content}
    (later : RoleForesees context foreseen role rest rest') {texts texts' : List (Position × String)}
    (same : Content.joined texts = Content.joined texts') :
    RoleForesees context foreseen role (Content.behind texts rest) (Content.behind texts' rest') := by
  have passed := expects_passTexts context same
  cases role with
  | entity layout =>
      intro frame location' values seen layoutEq
      have loop (frame : Frame) :=
        loop_behind context (context.readChildren frame values seen) fun _ _ _ => rfl
      rw [loop, loop]
      apply (Foresees.lift passed).after
      intro _ _ _
      exact later frame location' values seen layoutEq
  | items itemTag type =>
      intro id field collection holder itemEq
      have loop :=
        loop_behind context (context.readItems id field collection type holder) fun _ _ _ => rfl
      rw [loop, loop]
      apply (Foresees.lift passed).after
      intro _ _ _
      exact later id field collection holder itemEq
  | entries encoding itemTag =>
      intro id field entries itemEq
      have loop :=
        loop_behind context (context.readEntries id field encoding entries) fun _ _ _ => rfl
      rw [loop, loop]
      apply (Foresees.lift passed).after
      intro _ _ _
      exact later id field entries itemEq
  | entry =>
      intro field parts position''
      rw [entryParts_behind, entryParts_behind]
      have step := passed.bind fun _ _ _ => later field parts position''
      rwa [Option.none_or] at step

theorem RoleForesees.text {role : Role} {rest rest' : Content}
    (later : RoleForesees context foreseen role rest rest') (position position' : Position)
    (text : String) :
    RoleForesees context foreseen role (.text position text rest) (.text position' text rest') :=
  @RoleForesees.texts context foreseen role rest rest' later [(position, text)] [(position', text)] rfl

private theorem expects_takeTag (field : TaggedField) (seen : List String) (tag : Tag)
    (position' : Position) :
    Expects none (· = ·) (context.takeTag field seen tag)
      (context.takeTag field seen { tag with position := position' }) := by
  unfold Context.takeTag
  split
  · exact .ok rfl
  · split
    · exact .failed
    · exact .ok rfl

private theorem foresees_readEntry (id : EntityId) (field : TaggedField) (encoding : MapEncoding)
    (entries : OrderedMap String String) (tag : Tag) (position' : Position)
    (element : ElementForesees context foreseen
      ((Role.entries encoding field.itemTag).child? context.schema tag.name) inside inside') :
    Foresees foreseen (· = ·) (context.readEntry id field encoding entries tag inside)
      (context.readEntry id field encoding entries { tag with position := position' } inside') := by
  cases encoding with
  | inline =>
      obtain ⟨rfl, follows⟩ := element.whole rfl
      apply (Foresees.lift (expects_textOf context follows.resembles)).after
      rintro text _ rfl
      apply (foresees_recordEntry id field.name _ _ _).after
      intro _ _ _
      exact .pure rfl
  | explode =>
      simp only [Context.readEntry]
      by_cases isEntry : tag.name = field.itemTag
      · simp only [Role.child?, isEntry, if_true] at element ⊢
        apply (Foresees.lift (element.walked _ rfl field.declared {} none)).andThen
        rintro parts _ ⟨position, rfl⟩
        apply (foresees_recordEntry id field.name _ _ _).after
        intro _ _ _
        exact .pure rfl
      · simp only [Role.child?, isEntry, if_false] at element ⊢
        obtain ⟨rfl, follows⟩ := element.whole rfl
        apply (Foresees.lift (expects_passElement context tag _ follows.resembles)).after
        intro _ _ _
        exact .pure rfl

theorem expects_entryPart (field : Field) (parts : EntryParts) (valuePosition : Option Position)
    {tag tag' : Tag} (name_eq : tag'.name = tag.name) (resembles : inside.Resembles inside') :
    Expects none (fun found found' => ∃ position', found' = { found with position := position' })
      (context.entryPart field parts tag inside)
      (context.entryPart field { parts with position := valuePosition } tag' inside') := by
  unfold Context.entryPart
  rw [name_eq]
  split
  · apply (expects_textOf context resembles).after
    rintro text _ rfl
    exact .ok ⟨_, rfl⟩
  · split
    · apply (expects_textOf context resembles).after
      rintro text _ rfl
      exact .ok ⟨_, rfl⟩
    · apply (expects_passContent context resembles).after
      intro _ _ _
      exact .ok ⟨_, rfl⟩

/-- What is foreseen for a content that begins with an element is what is foreseen for the element,
or else for the rest. -/
theorem RoleForesees.element {later : Option ReadError} {role : Role} {tag : Tag}
    {rest rest' : Content} (position' : Position)
    (element : ElementForesees context foreseen (role.child? context.schema tag.name) inside inside')
    (restForesees : RoleForesees context later role rest rest') :
    RoleForesees context (foreseen.or later) role (.element tag inside rest)
      (.element { tag with position := position' } inside' rest') := by
  cases role with
  | entity layout =>
      rintro frame location' values seen rfl
      simp only [Context.readChildren]
      cases routes : frame.layout.elementField? tag.name with
      | none =>
          have noRole : (Role.entity frame.layout).child? context.schema tag.name = none := by
            simp only [Role.child?, routes, Option.bind_none]
          obtain ⟨rfl, follows⟩ := element.whole noRole
          apply (Foresees.lift (expects_passElement context tag _ follows.resembles)).bind
          intro _ _ _
          exact restForesees frame location' values seen rfl
      | some field =>
          simp only [Role.child?, routes, Option.bind_some] at element
          apply (Foresees.lift (expects_takeTag field seen tag position')).after
          rintro seen _ rfl
          apply (foresees_field frame location' values element tag position').bind
          rintro values _ rfl
          exact restForesees frame location' values seen rfl
  | items itemTag type =>
      rintro id field collection holder rfl
      by_cases isItem : tag.name = field.itemTag
      · simp only [Role.child?, if_pos isItem] at element
        simp only [Context.readItems, if_pos isItem]
        apply (foresees_item field element tag position').bind
        rintro value _ rfl
        apply (foresees_addItem id field collection type tag position' holder value).after
        rintro holder _ rfl
        exact restForesees id field collection holder rfl
      · simp only [Role.child?, if_neg isItem] at element
        simp only [Context.readItems, if_neg isItem]
        obtain ⟨rfl, follows⟩ := element.whole rfl
        apply (Foresees.lift (expects_passElement context tag _ follows.resembles)).bind
        intro _ _ _
        exact restForesees id field collection holder rfl
  | entries encoding itemTag =>
      rintro id field entries rfl
      apply (foresees_readEntry id field encoding entries tag position' element).bind
      rintro entries _ rfl
      exact restForesees id field entries rfl
  | entry =>
      intro field parts valuePosition
      obtain ⟨rfl, follows⟩ := element.whole rfl
      have sameName : ({ tag with position := position' } : Tag).name = tag.name := rfl
      apply (expects_entryPart field parts valuePosition sameName follows.resembles).bind
      rintro parts _ ⟨valuePosition, rfl⟩
      exact restForesees field parts valuePosition

theorem follows_foresees {content content' : Content} (follows : content.Follows content')
    (role : Role) : RoleForesees context none role content content' := by
  induction follows generalizing role with
  | closed encoding encoding' => exact .closed role encoding encoding'
  | broken texts ending content => exact .broken role texts ending content
  | texts same _ ih => exact (ih role).texts same
  | element followsInside _ ihInside ihRest =>
      exact .element _ ⟨fun inner _ => ihInside inner, fun _ => ⟨rfl, followsInside⟩⟩ (ihRest role)

theorem follows_element (follows : inside.Follows inside') (role? : Option Role) :
    ElementForesees context none role? inside inside' :=
  ⟨fun inner _ => follows_foresees follows inner, fun _ => ⟨rfl, follows⟩⟩

/-- A change at the end of a path of elements that are read child by child has the effect on the
first of them that it has on the last. -/
theorem edited_foresees {change : Content → Content → Prop} {path : List String}
    {content content' : Content} (edited : Content.Edited change path content content')
    {role final : Role} (leads : path.foldlM (Role.child? context.schema) role = some final)
    (changed : ∀ content content', change content content' →
      RoleForesees context foreseen final content content') :
    RoleForesees context foreseen role content content' := by
  induction edited generalizing role with
  | here isChanged =>
      cases leads
      exact changed _ _ isChanged
  | text _ ih => exact (ih leads).text _ _ _
  | after follows _ ih =>
      rw [← Option.none_or (o := foreseen)]
      exact .element _ (follows_element follows _) (ih leads)
  | inside _ follows ih =>
      rw [List.foldlM_cons] at leads
      obtain ⟨inner, known, leads⟩ := Option.bind_eq_some_iff.1 leads
      have element : ElementForesees context foreseen (some inner) _ _ :=
        ⟨fun role isRole => by cases isRole; exact ih leads, fun noRole => by cases noRole⟩
      rw [← known] at element
      rw [← Option.or_none (o := foreseen)]
      exact .element _ element (follows_foresees follows role)

end Elements

end Trellis.Reading
