import Trellis.Reading.Binding

/-!
What elements are read as.

A schema says by their names what the elements inside an element are read as.  Entities without
content field, the elements of lists, sets and maps, and the entries of exploded maps are read child
by child; any other element is taken as a whole or passed over.
-/

namespace Trellis.Reading

open Markup (Content Document Tag)
open Schema (Collection ItemType Layout MapEncoding TaggedField)

/-- What an element can be that is read child by child. -/
inductive Role where
  | entity (layout : Layout)
  | items (itemTag : String) (type : ItemType)
  | entries (encoding : MapEncoding) (itemTag : String)
  | entry

def entityRole? (schema : Schema) (className : String) : Option Role :=
  match schema.layout? className with
  | none => none
  | some layout => if layout.contentField?.isNone then some (.entity layout) else none

def itemRole? (schema : Schema) : ItemType → Option Role
  | .entity className => entityRole? schema className
  | .scalar _ => none

def fieldRole? (schema : Schema) (field : TaggedField) : Option Role :=
  match field.declared.kind with
  | .scalar _ => none
  | .one target => entityRole? schema target
  | .many _ type true => some (.items field.itemTag type)
  | .many _ type false => itemRole? schema type
  | .map encoding => some (.entries encoding field.itemTag)

def Role.child? (schema : Schema) (role : Role) (name : String) : Option Role :=
  match role with
  | .entity layout => (layout.elementField? name).bind (fieldRole? schema)
  | .items itemTag type => if name = itemTag then itemRole? schema type else none
  | .entries .explode itemTag => if name = itemTag then some .entry else none
  | .entries .inline _ => none
  | .entry => none

/-- Somewhere in the content of an element of the first role there is an element of the second with
its content. -/
inductive Holds (schema : Schema) : Role → Content → Role → Content → Prop
  | child {role inner : Role} {tag : Tag} {inside rest : Content}
      (known : role.child? schema tag.name = some inner) :
      Holds schema role (.element tag inside rest) inner inside
  | inside {role inner innermost : Role} {tag : Tag} {inside rest content : Content}
      (known : role.child? schema tag.name = some inner)
      (held : Holds schema inner inside innermost content) :
      Holds schema role (.element tag inside rest) innermost content
  | afterElement {role inner : Role} {tag : Tag} {inside rest content : Content}
      (held : Holds schema role rest inner content) :
      Holds schema role (.element tag inside rest) inner content
  | afterText {role inner : Role} {position : Position} {text : String} {rest content : Content}
      (held : Holds schema role rest inner content) :
      Holds schema role (.text position text rest) inner content

theorem entityRole?_eq_some_iff {schema : Schema} {className : String} {role : Role} :
    entityRole? schema className = some role ↔
      ∃ layout, schema.layout? className = some layout ∧ layout.contentField? = none ∧
        role = .entity layout := by
  unfold entityRole?
  cases schema.layout? className with
  | none => simp
  | some layout => cases contentEq : layout.contentField? <;> simp [contentEq, eq_comm]

theorem Holds.closed {schema : Schema} {role inner : Role} {encoding : String} {content : Content} :
    ¬ Holds schema role (.closed encoding) inner content := by
  intro held
  cases held

theorem Holds.broken {schema : Schema} {role inner : Role} {ending : Markup.Ending}
    {content : Content} : ¬ Holds schema role (.broken ending) inner content := by
  intro held
  cases held

theorem Holds.text_iff {schema : Schema} {role inner : Role} {position : Position} {text : String}
    {rest content : Content} :
    Holds schema role (.text position text rest) inner content ↔
      Holds schema role rest inner content := by
  constructor
  · intro held
    cases held with
    | afterText held => exact held
  · exact .afterText

theorem Holds.element_iff {schema : Schema} {role innermost : Role} {tag : Tag}
    {inside rest content : Content} :
    Holds schema role (.element tag inside rest) innermost content ↔
      (∃ inner, role.child? schema tag.name = some inner ∧
        (inner = innermost ∧ inside = content ∨ Holds schema inner inside innermost content)) ∨
      Holds schema role rest innermost content := by
  constructor
  · intro held
    cases held with
    | child known => exact .inl ⟨_, known, .inl ⟨rfl, rfl⟩⟩
    | inside known held => exact .inl ⟨_, known, .inr held⟩
    | afterElement held => exact .inr held
  · rintro (⟨inner, known, ⟨rfl, rfl⟩ | held⟩ | held)
    · exact .child known
    · exact .inside known held
    · exact .afterElement held

theorem Holds.not_in_map {schema : Schema} {role inner : Role} {content inside : Content}
    (held : Holds schema role content inner inside)
    (inMap : role = .entry ∨ ∃ encoding itemTag, role = .entries encoding itemTag)
    (layout : Layout) : inner ≠ .entity layout := by
  have child {role inner : Role} {name : String} (known : role.child? schema name = some inner)
      (inMap : role = .entry ∨ ∃ encoding itemTag, role = .entries encoding itemTag) :
      inner = .entry := by
    rcases inMap with rfl | ⟨encoding, itemTag, rfl⟩
    · cases known
    · cases encoding with
      | inline => cases known
      | explode =>
          simp only [Role.child?] at known
          split at known
          · cases known
            rfl
          · cases known
  induction held with
  | child known =>
      rw [child known inMap]
      exact Role.noConfusion
  | inside known _ ih => exact ih (.inl (child known inMap))
  | afterElement _ ih => exact ih inMap
  | afterText _ ih => exact ih inMap

end Trellis.Reading
