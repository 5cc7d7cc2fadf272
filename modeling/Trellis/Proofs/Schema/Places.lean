import Trellis.Schema.Build

/-!
The places of fields in the classes of a schema.

A field is an attribute, the content or an element field of its class.  In a schema that has been
built, attributes and contents are scalars, and a class has at most one content field.
-/

namespace Trellis.Schema

/-- Attributes and contents are scalars, and there is one content field at most. -/
structure Layout.Placed (layout : Layout) : Prop where
  fits : ∀ field ∈ layout.fields, field.declared.fitsItsPlace = true
  content : layout.fields.countP (·.declared.isContent) ≤ 1

/-! ### What building checks -/

private theorem placed_of_layoutProblem? {declarations : Declarations} {className : String}
    {layout : Layout} (fine : declarations.layoutProblem? className layout = none) :
    layout.Placed := by
  unfold Declarations.layoutProblem? at fine
  split at fine
  · cases fine
  · rename_i few
    constructor
    · intro field member
      have fieldFine := List.findSome?_eq_none_iff.1 fine field member
      unfold Declarations.fieldProblem? at fieldFine
      cases fits : field.declared.fitsItsPlace with
      | true => rfl
      | false =>
          rw [fits] at fieldFine
          cases fieldFine
    · omega

private theorem placed_of_resolve {declarations : Declarations} {declared : Class}
    {resolved : ResolvedClass} (resolves : declarations.resolve declared = .ok resolved) :
    resolved.layout.Placed := by
  unfold Declarations.resolve at resolves
  cases lineageEq : declarations.lineage declared with
  | error error =>
      rw [lineageEq] at resolves
      cases resolves
  | ok lineage =>
      rw [lineageEq] at resolves
      cases problemEq : declarations.layoutProblem? declared.name
        (declared.layout declarations.naming lineage) with
      | some problem =>
          simp only [bind, Except.bind, problemEq] at resolves
          cases resolves
      | none =>
          simp only [bind, Except.bind, problemEq] at resolves
          cases resolves
          exact placed_of_layoutProblem? problemEq

theorem mem_of_mapM {α β ε : Type} {f : α → Except ε β} {inputs : List α} {outputs : List β}
    (run : inputs.mapM f = .ok outputs) {output : β} (member : output ∈ outputs) :
    ∃ input ∈ inputs, f input = .ok output := by
  induction inputs generalizing outputs with
  | nil =>
      cases run
      cases member
  | cons first rest ih =>
      rw [List.mapM_cons] at run
      cases firstEq : f first with
      | error error =>
          rw [firstEq] at run
          cases run
      | ok firstOutput =>
          rw [firstEq] at run
          cases restEq : rest.mapM f with
          | error error =>
              rw [restEq] at run
              cases run
          | ok restOutputs =>
              rw [restEq] at run
              cases run
              rcases List.mem_cons.1 member with here | later
              · rw [here]
                exact ⟨first, List.mem_cons_self, firstEq⟩
              · obtain ⟨input, inputMember, inputEq⟩ := ih restEq later
                exact ⟨input, List.mem_cons_of_mem first inputMember, inputEq⟩

theorem placed_of_build {declarations : Declarations} {schema : Schema}
    (built : declarations.build = .ok schema) :
    ∀ resolved ∈ schema.classes, resolved.layout.Placed := by
  intro resolved member
  unfold Declarations.build at built
  simp only [bind, Except.bind] at built
  split at built
  · cases built
  · cases rootEq : declarations.checkedRoot with
    | error error =>
        simp only [rootEq] at built
        cases built
    | ok root =>
        simp only [pure, Except.pure, rootEq] at built
        split at built
        · cases built
        · cases classesEq : declarations.classes.mapM declarations.resolve with
          | error error =>
              simp only [classesEq] at built
              cases built
          | ok classes =>
              simp only [classesEq] at built
              cases built
              obtain ⟨declared, _, resolves⟩ := mem_of_mapM classesEq member
              exact placed_of_resolve resolves

/-! ### The three places -/

namespace Layout

variable {layout : Layout} {field : TaggedField}

theorem mem_attributeFields_iff :
    field ∈ layout.attributeFields ↔ field ∈ layout.fields ∧ field.declared.isAttribute = true := by
  simp only [attributeFields, List.mem_filter]

private theorem mem_elementFields_iff :
    field ∈ layout.elementFields ↔
      field ∈ layout.fields ∧ field.declared.isAttribute = false ∧ field.declared.isContent = false := by
  simp [elementFields, List.mem_filter]

theorem contentField?_mem_fields (found : layout.contentField? = some field) :
    field ∈ layout.fields ∧ field.declared.isContent = true :=
  ⟨List.mem_of_find?_eq_some found, by simpa using List.find?_some found⟩

/-- Where one element of a list is counted, it is the one that is found. -/
theorem find?_of_countP_le_one {α : Type} {p : α → Bool} {items : List α}
    (few : items.countP p ≤ 1) {item : α} (member : item ∈ items) (holds : p item = true) :
    items.find? p = some item := by
  induction items with
  | nil => cases member
  | cons first rest ih =>
      cases firstHolds : p first with
      | true =>
          rw [List.countP_cons, firstHolds, if_pos rfl] at few
          rw [List.find?_cons_of_pos firstHolds]
          rcases List.mem_cons.1 member with here | later
          · rw [here]
          · have counted : 0 < rest.countP p := List.countP_pos_iff.2 ⟨item, later, holds⟩
            omega
      | false =>
          rw [List.countP_cons, firstHolds] at few
          have different : ¬ p first = true := by
            rw [firstHolds]
            decide
          rw [List.find?_cons_of_neg different]
          rcases List.mem_cons.1 member with here | later
          · rw [here, firstHolds] at holds
            cases holds
          · apply ih _ later
            simpa using few

theorem Placed.cases (placed : layout.Placed) (member : field ∈ layout.fields) :
    field ∈ layout.attributeFields ∨ layout.contentField? = some field ∨ field ∈ layout.elementFields := by
  cases isAttribute : field.declared.isAttribute with
  | true => exact .inl (mem_attributeFields_iff.2 ⟨member, isAttribute⟩)
  | false =>
      cases isContent : field.declared.isContent with
      | true => exact .inr (.inl (find?_of_countP_le_one placed.content member isContent))
      | false => exact .inr (.inr (mem_elementFields_iff.2 ⟨member, isAttribute, isContent⟩))

theorem Placed.scalarType? (placed : layout.Placed) (member : field ∈ layout.fields)
    (marked : field.declared.isAttribute = true ∨ field.declared.isContent = true) :
    ∃ type, field.declared.scalarType? = some type := by
  have fits := placed.fits field member
  unfold Field.fitsItsPlace at fits
  rw [if_pos (by simpa using marked)] at fits
  cases typeEq : field.declared.scalarType? with
  | none =>
      rw [typeEq] at fits
      cases fits
  | some type => exact ⟨type, rfl⟩

theorem Placed.attribute_scalarType? (placed : layout.Placed)
    (member : field ∈ layout.attributeFields) :
    ∃ type, field.declared.scalarType? = some type := by
  obtain ⟨isField, isAttribute⟩ := mem_attributeFields_iff.1 member
  exact placed.scalarType? isField (.inl isAttribute)

theorem Placed.content_scalarType? (placed : layout.Placed)
    (found : layout.contentField? = some field) :
    ∃ type, field.declared.scalarType? = some type := by
  obtain ⟨isField, isContent⟩ := contentField?_mem_fields found
  exact placed.scalarType? isField (.inr isContent)

end Layout

end Trellis.Schema
