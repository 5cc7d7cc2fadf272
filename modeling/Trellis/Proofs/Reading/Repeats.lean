import Trellis.Proofs.Reading.Roles
import Trellis.Proofs.Reading.Runs

/-!
Children of one entity that fill a field twice.

A child belongs to the first element field that claims its name.  It repeats an earlier child if
both belong to fields with one tag, and neither of these is an unwrapped list or set.  The reader
keeps a list of taken tags instead, and what it does with a child is told here by the children in
front of it alone.
-/

namespace Trellis.Reading

open Markup (Content Document Tag)
open Schema (ItemType Layout TaggedField)

inductive Part where
  | text (position : Position) (content : String)
  | element (tag : Tag) (inside : Content)

def Part.before : Part → Content → Content
  | .text position content, rest => .text position content rest
  | .element tag inside, rest => .element tag inside rest

def ahead (parts : List Part) (content : Content) : Content :=
  parts.foldr Part.before content

def IsElementField (field : TaggedField) : Prop :=
  field.declared.isAttribute = false ∧ field.declared.isContent = false

/-- An unwrapped list or set claims its item tag, every other field its tag and its other tag. -/
def Claims (field : TaggedField) (name : String) : Prop :=
  (field.declared.isUnwrapped = true ∧ name = field.itemTag) ∨
    (field.declared.isUnwrapped = false ∧ (name = field.tag ∨ field.declared.otherTag = some name))

def Routes (layout : Layout) (name : String) (field : TaggedField) : Prop :=
  ∃ before after, layout.fields = before ++ field :: after ∧ IsElementField field ∧
    Claims field name ∧ ∀ other ∈ before, IsElementField other → ¬ Claims other name

def Taken (layout : Layout) (tag : String) (parts : List Part) : Prop :=
  ∃ child inside field, Part.element child inside ∈ parts ∧ Routes layout child.name field ∧
    field.declared.isUnwrapped = false ∧ field.tag = tag

/-- The child stands in the content, and it belongs to a field that takes but one element and whose
tag is taken by then. -/
def Repeats (layout : Layout) (content : Content) (child : Tag) : Prop :=
  ∃ before inside rest field, content = ahead before (.element child inside rest) ∧
    Routes layout child.name field ∧ field.declared.isUnwrapped = false ∧
      Taken layout field.tag before

/-! ### Routing -/

theorem goesBy_iff_claims {field : TaggedField} {name : String} :
    field.goesBy name = true ↔ Claims field name := by
  unfold TaggedField.goesBy Claims
  cases field.declared.isUnwrapped <;> simp

theorem elementField?_eq_some_iff {layout : Layout} {name : String} {field : TaggedField} :
    layout.elementField? name = some field ↔ Routes layout name field := by
  have test (field : TaggedField) :
      ((!field.declared.isAttribute && !field.declared.isContent) && field.goesBy name) = true ↔
        IsElementField field ∧ Claims field name := by
    simp [IsElementField, goesBy_iff_claims]
  have missed (field : TaggedField) :
      (!((!field.declared.isAttribute && !field.declared.isContent) && field.goesBy name)) = true ↔
        (IsElementField field → ¬ Claims field name) := by
    rw [Bool.not_eq_true', ← Bool.not_eq_true, test, not_and]
  unfold Layout.elementField? Layout.elementFields Routes
  rw [List.find?_filter]
  simp only [Bool.decide_and, Bool.decide_eq_true]
  rw [List.find?_eq_some_iff_append, test]
  simp only [missed]
  constructor
  · rintro ⟨⟨element, claims⟩, before, after, fieldsEq, first⟩
    exact ⟨before, after, fieldsEq, element, claims, first⟩
  · rintro ⟨before, after, fieldsEq, element, claims, first⟩
    exact ⟨⟨element, claims⟩, before, after, fieldsEq, first⟩

/-! ### Tags taken along a content -/

def tagsAfter (layout : Layout) (seen : List String) (name : String) : List String :=
  match layout.elementField? name with
  | some field => if field.declared.isUnwrapped then seen else field.tag :: seen
  | none => seen

def RepeatsAfter (layout : Layout) (seen : List String) (content : Content) (child : Tag) : Prop :=
  ∃ before inside rest field, content = ahead before (.element child inside rest) ∧
    Routes layout child.name field ∧ field.declared.isUnwrapped = false ∧
      (field.tag ∈ seen ∨ Taken layout field.tag before)

private theorem repeats_iff {layout : Layout} {content : Content} {child : Tag} :
    Repeats layout content child ↔ RepeatsAfter layout [] content child := by
  simp [Repeats, RepeatsAfter]

theorem Taken.nil {layout : Layout} {tag : String} : ¬ Taken layout tag [] := by
  rintro ⟨child, inside, field, member, _⟩
  cases member

theorem Taken.text_iff {layout : Layout} {tag : String} {position : Position} {text : String}
    {parts : List Part} : Taken layout tag (.text position text :: parts) ↔ Taken layout tag parts := by
  simp [Taken]

theorem Taken.element_iff {layout : Layout} {tag : String} {seen : List String} {child : Tag}
    {inside : Content} {parts : List Part} :
    (tag ∈ seen ∨ Taken layout tag (.element child inside :: parts)) ↔
      (tag ∈ tagsAfter layout seen child.name ∨ Taken layout tag parts) := by
  have split : Taken layout tag (.element child inside :: parts) ↔
      (∃ field, layout.elementField? child.name = some field ∧ field.declared.isUnwrapped = false ∧
        field.tag = tag) ∨ Taken layout tag parts := by
    simp only [elementField?_eq_some_iff]
    constructor
    · rintro ⟨other, content, field, member, routes, single, tagEq⟩
      rcases List.mem_cons.1 member with same | member
      · cases same
        exact .inl ⟨field, routes, single, tagEq⟩
      · exact .inr ⟨other, content, field, member, routes, single, tagEq⟩
    · rintro (⟨field, routes, single, tagEq⟩ | ⟨other, content, field, member, found⟩)
      · exact ⟨child, inside, field, List.mem_cons_self, routes, single, tagEq⟩
      · exact ⟨other, content, field, List.mem_cons_of_mem _ member, found⟩
  have here : tag ∈ tagsAfter layout seen child.name ↔ tag ∈ seen ∨
      ∃ field, layout.elementField? child.name = some field ∧ field.declared.isUnwrapped = false ∧
        field.tag = tag := by
    unfold tagsAfter
    cases layout.elementField? child.name with
    | none => simp
    | some field =>
        cases unwrapped : field.declared.isUnwrapped with
        | true => simp [unwrapped]
        | false => simp [unwrapped, or_comm, eq_comm (a := tag)]
  rw [split, here, or_assoc]

theorem RepeatsAfter.closed {layout : Layout} {seen : List String} {encoding : String} {child : Tag} :
    ¬ RepeatsAfter layout seen (.closed encoding) child := by
  rintro ⟨before, inside, rest, field, contentEq, _⟩
  cases before with
  | nil => cases contentEq
  | cons part before => cases part <;> cases contentEq

theorem RepeatsAfter.broken {layout : Layout} {seen : List String} {ending : Markup.Ending}
    {child : Tag} : ¬ RepeatsAfter layout seen (.broken ending) child := by
  rintro ⟨before, inside, rest, field, contentEq, _⟩
  cases before with
  | nil => cases contentEq
  | cons part before => cases part <;> cases contentEq

theorem RepeatsAfter.text_iff {layout : Layout} {seen : List String} {position : Position}
    {text : String} {rest : Content} {child : Tag} :
    RepeatsAfter layout seen (.text position text rest) child ↔
      RepeatsAfter layout seen rest child := by
  constructor
  · rintro ⟨before, inside, after, field, contentEq, routes, single, taken⟩
    cases before with
    | nil => cases contentEq
    | cons part before =>
        cases part with
        | element other content => cases contentEq
        | text position text =>
            cases contentEq
            rw [Taken.text_iff] at taken
            exact ⟨before, inside, after, field, rfl, routes, single, taken⟩
  · rintro ⟨before, inside, after, field, rfl, routes, single, taken⟩
    refine ⟨.text position text :: before, inside, after, field, rfl, routes, single, ?_⟩
    rw [Taken.text_iff]
    exact taken

theorem RepeatsAfter.element_iff {layout : Layout} {seen : List String} {tag : Tag}
    {inside rest : Content} {child : Tag} :
    RepeatsAfter layout seen (.element tag inside rest) child ↔
      (child = tag ∧ ∃ field, layout.elementField? tag.name = some field ∧
        field.declared.isUnwrapped = false ∧ field.tag ∈ seen) ∨
      RepeatsAfter layout (tagsAfter layout seen tag.name) rest child := by
  constructor
  · rintro ⟨before, content, after, field, contentEq, routes, single, taken⟩
    cases before with
    | nil =>
        cases contentEq
        have notTaken : ¬ Taken layout field.tag [] := Taken.nil
        exact .inl ⟨rfl, field, elementField?_eq_some_iff.2 routes, single,
          taken.resolve_right notTaken⟩
    | cons part before =>
        cases part with
        | text position text => cases contentEq
        | element other inner =>
            cases contentEq
            exact .inr ⟨before, content, after, field, rfl, routes, single, Taken.element_iff.1 taken⟩
  · rintro (⟨rfl, field, routes, single, taken⟩ |
      ⟨before, content, after, field, rfl, routes, single, taken⟩)
    · exact ⟨[], inside, rest, field, rfl, elementField?_eq_some_iff.1 routes, single, .inl taken⟩
    · exact ⟨.element tag inside :: before, content, after, field, rfl, routes, single,
        Taken.element_iff.2 taken⟩

/-! ### Repeats at any depth -/

/-- A child repeats in an entity that is read from an element of the role, be it the element itself
or one inside it. -/
def RepeatsWithin (schema : Schema) (role : Role) (seen : List String) (content : Content)
    (child : Tag) : Prop :=
  (∃ layout, role = .entity layout ∧ RepeatsAfter layout seen content child) ∨
    ∃ layout inner, Holds schema role content (.entity layout) inner ∧ Repeats layout inner child

section Within

variable {schema : Schema} {role : Role} {seen : List String} {child : Tag}

theorem RepeatsWithin.closed {encoding : String} :
    ¬ RepeatsWithin schema role seen (.closed encoding) child := by
  rintro (⟨layout, rfl, repeats⟩ | ⟨layout, inner, held, _⟩)
  · exact RepeatsAfter.closed repeats
  · exact Holds.closed held

theorem RepeatsWithin.broken {ending : Markup.Ending} :
    ¬ RepeatsWithin schema role seen (.broken ending) child := by
  rintro (⟨layout, rfl, repeats⟩ | ⟨layout, inner, held, _⟩)
  · exact RepeatsAfter.broken repeats
  · exact Holds.broken held

theorem RepeatsWithin.text_iff {position : Position} {text : String} {rest : Content} :
    RepeatsWithin schema role seen (.text position text rest) child ↔
      RepeatsWithin schema role seen rest child := by
  simp only [RepeatsWithin, RepeatsAfter.text_iff, Holds.text_iff]

def RepeatsInside (schema : Schema) (role? : Option Role) (inside : Content) (child : Tag) : Prop :=
  ∃ role, role? = some role ∧ RepeatsWithin schema role [] inside child

theorem repeatsInside_iff {role? : Option Role} {inside : Content} :
    RepeatsInside schema role? inside child ↔ ∃ layout content, Repeats layout content child ∧
      ∃ role, role? = some role ∧ (role = .entity layout ∧ inside = content ∨
        Holds schema role inside (.entity layout) content) := by
  constructor
  · rintro ⟨role, known, ⟨layout, rfl, repeats⟩ | ⟨layout, content, held, repeats⟩⟩
    · exact ⟨layout, inside, repeats_iff.2 repeats, _, known, .inl ⟨rfl, rfl⟩⟩
    · exact ⟨layout, content, repeats, role, known, .inr held⟩
  · rintro ⟨layout, content, repeats, role, known, ⟨rfl, rfl⟩ | held⟩
    · exact ⟨_, known, .inl ⟨layout, rfl, repeats_iff.1 repeats⟩⟩
    · exact ⟨role, known, .inr ⟨layout, content, held, repeats⟩⟩

theorem RepeatsInside.none {inside : Content} : ¬ RepeatsInside schema none inside child := by
  rintro ⟨role, impossible, _⟩
  cases impossible

theorem RepeatsInside.not_in_map {role : Role} {inside : Content}
    (inMap : role = .entry ∨ ∃ encoding itemTag, role = .entries encoding itemTag) :
    ¬ RepeatsInside schema (some role) inside child := by
  rintro ⟨same, known, within⟩
  cases known
  rcases within with ⟨layout, rfl, _⟩ | ⟨layout, content, held, _⟩
  · rcases inMap with impossible | ⟨_, _, impossible⟩ <;> cases impossible
  · exact held.not_in_map inMap layout rfl

private theorem heldRepeats_element_iff {tag : Tag} {inside rest : Content} :
    (∃ layout inner, Holds schema role (.element tag inside rest) (.entity layout) inner ∧
        Repeats layout inner child) ↔
      RepeatsInside schema (role.child? schema tag.name) inside child ∨
        ∃ layout inner, Holds schema role rest (.entity layout) inner ∧ Repeats layout inner child := by
  rw [repeatsInside_iff]
  simp only [Holds.element_iff]
  constructor
  · rintro ⟨layout, inner, ⟨role', known, here⟩ | held, repeats⟩
    · exact .inl ⟨layout, inner, repeats, role', known, here⟩
    · exact .inr ⟨layout, inner, held, repeats⟩
  · rintro (⟨layout, inner, repeats, role', known, here⟩ | ⟨layout, inner, held, repeats⟩)
    · exact ⟨layout, inner, .inl ⟨role', known, here⟩, repeats⟩
    · exact ⟨layout, inner, .inr held, repeats⟩

theorem RepeatsWithin.entity_iff {layout : Layout} {tag : Tag} {inside rest : Content} :
    RepeatsWithin schema (.entity layout) seen (.element tag inside rest) child ↔
      (child = tag ∧ ∃ field, layout.elementField? tag.name = some field ∧
        field.declared.isUnwrapped = false ∧ field.tag ∈ seen) ∨
      RepeatsInside schema ((Role.entity layout).child? schema tag.name) inside child ∨
      RepeatsWithin schema (.entity layout) (tagsAfter layout seen tag.name) rest child := by
  have this (seen : List String) (content : Content) :
      (∃ layout', Role.entity layout = .entity layout' ∧ RepeatsAfter layout' seen content child) ↔
        RepeatsAfter layout seen content child := by
    simp
  unfold RepeatsWithin
  rw [this, this, heldRepeats_element_iff, RepeatsAfter.element_iff, or_assoc]
  exact or_congr Iff.rfl or_left_comm

theorem RepeatsWithin.items_iff {itemTag : String} {type : ItemType} {tag : Tag}
    {inside rest : Content} :
    RepeatsWithin schema (.items itemTag type) seen (.element tag inside rest) child ↔
      RepeatsInside schema ((Role.items itemTag type).child? schema tag.name) inside child ∨
      RepeatsWithin schema (.items itemTag type) seen rest child := by
  have notEntity (content : Content) : ¬ ∃ layout,
      Role.items itemTag type = .entity layout ∧ RepeatsAfter layout seen content child := by
    simp
  unfold RepeatsWithin
  rw [heldRepeats_element_iff]
  simp only [notEntity, false_or]

end Within

/-! ### Up to a child -/

variable {context : Context}

theorem takeTag_of_taken {field : TaggedField} {seen : List String}
    (single : field.declared.isUnwrapped = false) (taken : field.tag ∈ seen) (tag : Tag) :
    context.takeTag field seen tag =
      .error (.duplicateElement tag.name (context.locate tag.position)) := by
  simp [Context.takeTag, single, taken]

theorem takeTag_of_free {layout : Layout} {field : TaggedField} {seen : List String} {tag : Tag}
    (routes : layout.elementField? tag.name = some field)
    (free : ¬ (field.declared.isUnwrapped = false ∧ field.tag ∈ seen)) :
    context.takeTag field seen tag = .ok (tagsAfter layout seen tag.name) := by
  unfold Context.takeTag tagsAfter
  cases unwrapped : field.declared.isUnwrapped with
  | true => simp [routes, unwrapped]
  | false =>
      have notTaken : field.tag ∉ seen := fun taken => free ⟨unwrapped, taken⟩
      simp [routes, unwrapped, notTaken]

private theorem takeTag_eq_ok {layout : Layout} {field : TaggedField} {seen taken : List String}
    {tag : Tag}
    (routes : layout.elementField? tag.name = some field)
    (takes : context.takeTag field seen tag = .ok taken) :
    taken = tagsAfter layout seen tag.name := by
  by_cases repeated : field.declared.isUnwrapped = false ∧ field.tag ∈ seen
  · rw [takeTag_of_taken repeated.1 repeated.2] at takes
    cases takes
  · rw [takeTag_of_free routes repeated] at takes
    cases takes
    rfl

private theorem readChildren_ahead {frame : Frame} {encoding : String} {before : List Part}
    {values : FieldValues} {seen : List String} {session : Session} {found : FieldValues × Session}
    (succeeds : context.readChildren frame values seen (ahead before (.closed encoding)) session =
      .ok found) :
    ∃ taken, (∀ tag, tag ∈ taken ↔ tag ∈ seen ∨ Taken frame.layout tag before) ∧
      ∀ rest, context.readChildren frame values seen (ahead before rest) session =
        context.readChildren frame found.1 taken rest found.2 := by
  induction before generalizing values seen session with
  | nil =>
      cases succeeds
      refine ⟨seen, ?_, fun rest => rfl⟩
      intro tag
      have notTaken : ¬ Taken frame.layout tag [] := Taken.nil
      simp only [notTaken, or_false]
  | cons part before ih =>
      cases part with
      | text position text =>
          obtain ⟨_, session', passes, succeeds⟩ := Read.bind_eq_ok succeeds
          obtain ⟨taken, takenIff, goesOn⟩ := ih succeeds
          refine ⟨taken, ?_, ?_⟩
          · intro tag
            rw [takenIff, Taken.text_iff]
          · intro rest
            rw [← goesOn rest]
            exact Read.bind_of_ok passes _
      | element tag inside =>
          have tagsIff {taken : List String} (takenIff : ∀ other, other ∈ taken ↔
              other ∈ tagsAfter frame.layout seen tag.name ∨ Taken frame.layout other before)
              (other : String) : other ∈ taken ↔
                other ∈ seen ∨ Taken frame.layout other (.element tag inside :: before) := by
            rw [takenIff, Taken.element_iff]
          change context.readChildren frame values seen
            (.element tag inside (ahead before (.closed encoding))) session = .ok found at succeeds
          change ∃ taken, _ ∧ ∀ rest, context.readChildren frame values seen
            (.element tag inside (ahead before rest)) session = _
          simp only [Context.readChildren] at succeeds ⊢
          cases routes : frame.layout.elementField? tag.name with
          | none =>
              simp only [routes] at succeeds ⊢
              obtain ⟨_, session', passes, succeeds⟩ := Read.bind_eq_ok succeeds
              obtain ⟨taken, takenIff, goesOn⟩ := ih succeeds
              have same : tagsAfter frame.layout seen tag.name = seen := by simp [tagsAfter, routes]
              refine ⟨taken, tagsIff (by rw [same]; exact takenIff), ?_⟩
              intro rest
              rw [← goesOn rest]
              exact Read.bind_of_ok passes _
          | some field =>
              simp only [routes] at succeeds ⊢
              obtain ⟨taken', session', takes, succeeds⟩ := Read.bind_eq_ok succeeds
              obtain ⟨values', session'', reads, succeeds⟩ := Read.bind_eq_ok succeeds
              obtain ⟨taken, takenIff, goesOn⟩ := ih succeeds
              have same : taken' = tagsAfter frame.layout seen tag.name := by
                rw [Read.lift_apply] at takes
                cases takesEq : context.takeTag field seen tag with
                | error error =>
                    rw [takesEq] at takes
                    cases takes
                | ok tags =>
                    rw [takesEq] at takes
                    cases takes
                    exact takeTag_eq_ok routes takesEq
              rw [same] at takenIff
              refine ⟨taken, tagsIff takenIff, ?_⟩
              intro rest
              rw [← goesOn rest]
              exact (Read.bind_of_ok takes _).trans (Read.bind_of_ok reads _)

/-- A child behind others that can be read: it is an error if it repeats one of them, and otherwise
its field is read. -/
theorem readChildren_child {frame : Frame} {encoding : String} {before : List Part}
    {values : FieldValues} {session : Session} {found : FieldValues × Session}
    (succeeds : context.readChildren frame values [] (ahead before (.closed encoding)) session =
      .ok found)
    {child : Tag} {field : TaggedField} (routes : Routes frame.layout child.name field)
    (inside rest : Content) :
    let outcome :=
      context.readChildren frame values [] (ahead before (.element child inside rest)) session
    let repeated := field.declared.isUnwrapped = false ∧ Taken frame.layout field.tag before
    (repeated → outcome = .error (.duplicateElement child.name (context.locate child.position))) ∧
      (¬ repeated → ∃ taken, outcome = (do
        let values ← context.readField frame found.1 field child inside
        context.readChildren frame values taken rest : Read FieldValues) found.2) := by
  intro outcome repeated
  obtain ⟨seen, seenIff, goesOn⟩ := readChildren_ahead succeeds
  have takenIff : field.tag ∈ seen ↔ Taken frame.layout field.tag before := by
    rw [seenIff]
    simp only [List.not_mem_nil, false_or]
  have outcomeEq : outcome = (do
      let seen ← context.takeTag field seen child
      let values ← context.readField frame found.1 field child inside
      context.readChildren frame values seen rest : Read FieldValues) found.2 := by
    have step := goesOn (.element child inside rest)
    simp only [Context.readChildren, elementField?_eq_some_iff.2 routes] at step
    exact step
  constructor
  · intro isRepeated
    rw [outcomeEq, takeTag_of_taken isRepeated.1 (takenIff.2 isRepeated.2)]
    rfl
  · intro notRepeated
    have free : ¬ (field.declared.isUnwrapped = false ∧ field.tag ∈ seen) := by
      rw [takenIff]
      exact notRepeated
    refine ⟨tagsAfter frame.layout seen child.name, ?_⟩
    rw [outcomeEq, takeTag_of_free (elementField?_eq_some_iff.2 routes) free]
    rfl

end Trellis.Reading
