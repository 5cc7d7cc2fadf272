import Trellis.Reading.Binding
import Trellis.Reading.Cursor
import Trellis.Reading.Reader

/-!
Readers of elements, whatever an element is taken from.

The tokens of an element come one after the other, from a list or on demand, and identities may be
counted with more or less room; or the element is at hand with all its content.  The readers here know
nothing of this.  They use an access to the element, and loops that they are handed for what is inside.
For an element at hand they are the readers of its content.

Those that hand loops on are reducible, and each begins with an action, so that a loop may be defined
by itself through them.
-/

namespace Trellis.Reading

open Trellis.Graph (Entity Tree Value)
open Markup (Tag)
open Schema (Collection Field ItemType Layout MapEncoding ScalarType TaggedField)

/-- How an element is taken.  After its start tag it is taken once, in one of the ways there are or by
a loop over what is inside. -/
structure Access (m : Type → Type) where
  context : Context
  tag : m Tag
  /-- Its texts, if there are no elements inside. -/
  text : m String
  tree : m Tree
  skip : m Unit
  /-- Begins an entity of the class. -/
  begin : String → Tag → Bool → m (Frame × FieldValues)
  /-- Does what needs nothing of the element and gives out no identity. -/
  still : {α : Type} → Read α → m α

/-- Reads the children of an entity that has begun, from the values it has to those it ends up
with. -/
abbrev ChildrenOf (m : Type → Type) := Frame → FieldValues → m FieldValues

/-- Reads the items in the element of a list or set. -/
abbrev ItemsOf (m : Type → Type) := Collection → ItemType → m Value

/-- Reads the entries in the element of a map. -/
abbrev EntriesOf (m : Type → Type) := MapEncoding → m (OrderedMap String String)

variable {m : Type → Type} [Monad m]

namespace Access

variable (access : Access m)

def scalar (field : Field) (type : ScalarType) : m Value := do
  let tag ← access.tag
  match type with
  | .tree => return .tree (← access.tree)
  | type => do
      let text ← access.text
      access.still
        (coerce access.context.strict field type text (access.context.locate tag.position))

/-- Passes over an element that belongs to no field. -/
def unknown : m Unit := do
  let tag ← access.tag
  if access.context.strict then
    access.still (throw (.unknownElement tag.name (access.context.locate tag.position)))
  else access.skip

/-! ### Maps -/

/-- The parts of an exploded entry with what the element gives. -/
def part (field : Field) (parts : EntryParts) : m EntryParts := do
  let tag ← access.tag
  if tag.name = "key" then do
    let text ← access.text
    return { parts with key := some text }
  else if tag.name = "value" then do
    let text ← access.text
    return { parts with value := some (fieldText field text), position := some tag.position }
  else do
    access.skip
    return parts

/-- Adds the entry that the element is, whose parts `entry` finds if it is exploded. -/
def mapItem (id : EntityId) (field : TaggedField) (encoding : MapEncoding)
    (entries : OrderedMap String String) (entry : m EntryParts) : m (OrderedMap String String) := do
  let tag ← access.tag
  match encoding with
  | .inline => do
      let text ← access.text
      access.still (recordEntry id field.name (.key tag.name) (access.context.locate tag.position))
      return entries.set tag.name (fieldText field.declared text)
  | .explode =>
      if tag.name = field.itemTag then do
        let parts ← entry
        let key := parts.key.getD ""
        let position := parts.position.getD tag.position
        access.still (recordEntry id field.name (.key key) (access.context.locate position))
        return entries.set key (parts.value.getD "")
      else do
        access.unknown
        return entries

def map (frame : Frame) (values : FieldValues) (field : TaggedField)
    (entries : m (OrderedMap String String)) : m FieldValues := do
  let tag ← access.tag
  access.still (recordField frame.id field.name (access.context.locate tag.position))
  let entries ← entries
  return values.set field.name (.map entries)

/-! ### Entities and their children -/

def content (frame : Frame) (values : FieldValues) (field : TaggedField) : m FieldValues := do
  match field.declared.scalarType? with
  | none => do
      access.skip
      return values
  | some type => do
      let value ← access.scalar field.declared type
      access.still (recordField frame.id field.name frame.location)
      return values.set field.name value

abbrev entity (className : String) (atRoot : Bool) (children : ChildrenOf m) : m Entity := do
  let tag ← access.tag
  let (frame, values) ← access.begin className tag atRoot
  match frame.layout.contentField? with
  | some field => do
      let values ← access.content frame values field
      return .mk frame.id className values
  | none => do
      let values ← children frame values
      return .mk frame.id className values

/-- The item that the element is, behind its start tag. -/
abbrev item (field : TaggedField) (type : ItemType) (children : ChildrenOf m) : m (Tag × Value) := do
  let tag ← access.tag
  match type with
  | .entity className => do
      let entity ← access.entity className false children
      return (tag, .entity entity)
  | .scalar type => do
      let value ← access.scalar field.declared type
      return (tag, value)

abbrev wrapped (frame : Frame) (values : FieldValues) (field : TaggedField) (collection : Collection)
    (type : ItemType) (items : ItemsOf m) : m FieldValues := do
  let tag ← access.tag
  access.still
    (recordCollection frame.id field.name type (access.context.locate tag.position))
  let holder ← items collection type
  return values.set field.name holder

abbrev unwrapped (frame : Frame) (values : FieldValues) (field : TaggedField)
    (collection : Collection) (type : ItemType) (children : ChildrenOf m) : m FieldValues := do
  let (tag, value) ← access.item field type children
  access.still (access.context.keepItem frame values field collection type tag value)

/-- Sets the field that the element belongs to. -/
abbrev field (frame : Frame) (values : FieldValues) (field : TaggedField) (children : ChildrenOf m)
    (items : ItemsOf m) (entries : EntriesOf m) : m FieldValues := do
  let tag ← access.tag
  match field.declared.kind with
  | .scalar type => do
      let value ← access.scalar field.declared type
      access.still (recordField frame.id field.name (access.context.locate tag.position))
      return values.set field.name value
  | .one target => do
      let entity ← access.entity target false children
      return values.set field.name (.entity entity)
  | .many collection type true => access.wrapped frame values field collection type items
  | .many collection type false => access.unwrapped frame values field collection type children
  | .map encoding => access.map frame values field (entries encoding)

/-- One child of an entity.  `seen` holds the tags that are taken. -/
abbrev child (frame : Frame) (values : FieldValues) (seen : List String) (children : ChildrenOf m)
    (items : TaggedField → ItemsOf m) (entries : TaggedField → EntriesOf m) :
    m (FieldValues × List String) := do
  let tag ← access.tag
  match frame.layout.elementField? tag.name with
  | none => do
      access.unknown
      return (values, seen)
  | some field => do
      let seen ← access.still (access.context.takeTag field seen tag)
      let values ← access.field frame values field children (items field) (entries field)
      return (values, seen)

/-- Adds the item that the element is, if it is one. -/
abbrev addItem (id : EntityId) (field : TaggedField) (collection : Collection) (type : ItemType)
    (holder : Value) (children : ChildrenOf m) : m Value := do
  let tag ← access.tag
  if tag.name = field.itemTag then do
    let (tag, value) ← access.item field type children
    access.still (access.context.addItem id field collection type tag holder value)
  else do
    access.unknown
    return holder

/-- The graph of a document whose first element is the one taken, read as an entity of the class.
`encoding` tells what the document has declared. -/
def root (className : String) (layout : Layout) (children : ChildrenOf m) (encoding : m String) :
    m ObjectGraph := do
  let tag ← access.tag
  if access.context.strict && tag.name ≠ layout.tag then
    access.still
      (throw (.unexpectedRoot layout.tag tag.name (access.context.locate tag.position)))
  else do
    let root ← access.entity className true children
    let encoding ← encoding
    let session ← access.still get
    return {
      root
      encoding
      locations :=
        if access.context.schema.tracksLocations then some session.locations else none }

/-- Reads a document.  `toRoot` goes to its first start tag. -/
def document (className : String) (toRoot : Layout → m Unit) (children : ChildrenOf m)
    (encoding : m String) : m ObjectGraph :=
  match access.context.schema.layout? className with
  | none => access.still (throw (.unknownClass className))
  | some layout => do
      toRoot layout
      access.root className layout children encoding

end Access

/-! ### Loops over tokens -/

/-- How tokens are taken one after the other. -/
structure Tokens (m : Type → Type) where
  next : m Mark
  /-- The start tag taken last. -/
  tag : m Tag
  /-- The text taken last. -/
  text : m String
  place : m Location

/-- One step of a loop over the elements up to an end tag. -/
abbrev atNextTag {α : Type} (nextTag : m Mark) (found : α) (onElement : m α) : m α := do
  match ← nextTag with
  | .opening => onElement
  | _ => return found

namespace Tokens

variable [MonadExcept ReadError m] (tokens : Tokens m)

/-- The tree of an element in which `parts` finds the texts and the elements. -/
abbrev tree (parts : m (String × List Tree)) : m Tree := do
  let tag ← tokens.tag
  let (text, children) ← parts
  return treeOfParts tag text children

/-- One step of a loop that adds the texts and the elements up to the end tag to those found
before. -/
abbrev parts (again : String → List Tree → m (String × List Tree)) (text : String)
    (children : List Tree) : m (String × List Tree) := do
  match ← tokens.next with
  | .opening => do
      let child ← tokens.tree (again "" [])
      again text (children ++ [child])
  | .text => do
      let content ← tokens.text
      again (text ++ content) children
  | .closing => return (text, children)
  | .finished => do
      let place ← tokens.place
      throw (.unexpectedEnd place)

/-- One step of a loop to the first start tag of a document. -/
abbrev toRoot (layout : Layout) (again : m Unit) : m Unit := do
  match ← tokens.next with
  | .opening => return ()
  | .finished => do
      let place ← tokens.place
      throw (.noElement layout.tag place)
  | _ => again

end Tokens

end Trellis.Reading
