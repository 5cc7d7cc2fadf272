import Trellis.Schema.Declaration

/-!
Layouts: the fields of a class as documents show them, inherited ones first, each with its tags
settled.

Reading goes by a layout alone.  Three kinds of field share it: attributes, at most one content
field, and element fields, which are all the others.
-/

namespace Trellis.Schema

structure TaggedField where
  declared : Field
  tag : String
  /-- The tag of one item of a list or set, and of one entry of an exploded map. -/
  itemTag : String
  deriving DecidableEq, Repr

def TaggedField.name (field : TaggedField) : String :=
  field.declared.name

/-- Whether a child element of the given name belongs to the field: an item of an unwrapped field is
written under the item tag, everything else under the tag or the other tag. -/
def TaggedField.goesBy (field : TaggedField) (name : String) : Bool :=
  if field.declared.isUnwrapped then name == field.itemTag
  else name == field.tag || field.declared.otherTag == some name

structure Layout where
  tag : String
  fields : List TaggedField
  deriving DecidableEq, Repr

def Layout.contentField? (layout : Layout) : Option TaggedField :=
  layout.fields.find? (·.declared.isContent)

def Layout.attributeFields (layout : Layout) : List TaggedField :=
  layout.fields.filter (·.declared.isAttribute)

def Layout.attributeField? (layout : Layout) (tag : String) : Option TaggedField :=
  layout.fields.find? fun field => field.declared.isAttribute && field.tag == tag

def Layout.elementFields (layout : Layout) : List TaggedField :=
  layout.fields.filter fun field => !field.declared.isAttribute && !field.declared.isContent

def Layout.elementField? (layout : Layout) (name : String) : Option TaggedField :=
  layout.elementFields.find? (·.goesBy name)

/-- A tag given in the declaration wins over the convention, an item tag over the singular. -/
def Field.settle (naming : Naming) (field : Field) : TaggedField :=
  let tag := field.tagName.getD (naming.apply field.name)
  { declared := field, tag := tag, itemTag := field.itemTag.getD (singular tag) }

/-- The layout of the class whose ancestors, from the topmost one down to itself, are `lineage`. -/
def Class.layout (naming : Naming) (lineage : List Class) (declared : Class) : Layout :=
  { tag := declared.tagName.getD (naming.apply declared.name)
    fields := lineage.flatMap fun ancestor => ancestor.fields.map (Field.settle naming) }

theorem Layout.mem_fields_of_elementField? {layout : Layout} {name : String} {field : TaggedField}
    (h : layout.elementField? name = some field) : field ∈ layout.fields :=
  (List.mem_filter.1 (List.mem_of_find?_eq_some h)).1

end Trellis.Schema
