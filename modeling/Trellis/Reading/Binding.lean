import Trellis.Location.Map
import Trellis.Markup.Content
import Trellis.Reading.Coercion
import Trellis.Schema.Build

/-!
Binding: from the content of a document to entities.

The start tag of an entity gives its attributes.  Its content is either the value of its one content
field or a row of child elements, each of which belongs to the first element field that goes by its
name.  A strict read refuses an element of no field; a lenient one passes over it.  Reading an
element looks at nothing after its end tag.

Identities are given out in the order of start tags, and the places of everything read are recorded
on the way.
-/

namespace Trellis.Reading

open Trellis.Graph (Entity Tree Value)
open Markup (Content Ending Tag)
open Schema (Collection Field ItemType Layout MapEncoding ScalarType TaggedField)

structure Context where
  schema : Schema
  strict : Bool
  /-- The provenance that goes with every location. -/
  source : Option Source

structure Session where
  nextId : Nat
  locations : LocationMap

def Session.initial : Session :=
  ⟨0, .empty⟩

/-- A part of a read: it may end with an error, and it may give out identities and record places. -/
abbrev Read := StateT Session (Except ReadError)

abbrev FieldValues := OrderedMap String Value

/-! ### Places -/

def Context.locate (context : Context) (position : Position) : Location :=
  ⟨position, context.source⟩

def newEntity (location : Location) : Read EntityId := do
  let session ← get
  let id : EntityId := ⟨session.nextId⟩
  set { nextId := session.nextId + 1, locations := session.locations.setEntity id location : Session }
  return id

def recordField (id : EntityId) (field : String) (location : Location) : Read Unit :=
  modify fun session => { session with locations := session.locations.setField id field location }

def recordEntry (id : EntityId) (field : String) (key : EntryKey) (location : Location) : Read Unit :=
  modify fun session => { session with locations := session.locations.setEntry id field key location }

/-! ### Passing over, and reading without classes -/

def Context.breakError (context : Context) : Ending → ReadError
  | .failed error => .markup error
  | .finished first _ _ => .unexpectedEnd (context.locate first)

def Context.passContent (context : Context) (inside : Content) : Except ReadError Unit :=
  match inside.break? with
  | none => .ok ()
  | some ending => .error (context.breakError ending)

/-- Passes over text between elements: a strict read admits blanks only. -/
def Context.passText (context : Context) (position : Position) (text : String) :
    Except ReadError Unit :=
  if context.strict && !Text.isBlankText text then
    .error (.unexpectedText (context.locate position))
  else .ok ()

/-- Passes over an element of no field, which a strict read refuses. -/
def Context.passElement (context : Context) (tag : Tag) (inside : Content) : Except ReadError Unit :=
  if context.strict then .error (.unknownElement tag.name (context.locate tag.position))
  else context.passContent inside

def Context.textOf (context : Context) : Content → Except ReadError String
  | .closed _ => .ok ""
  | .broken ending => .error (context.breakError ending)
  | .text _ content rest => (content ++ ·) <$> context.textOf rest
  | .element tag _ _ => .error (.unexpectedElement tag.name (context.locate tag.position))

def treeOfParts (tag : Tag) (text : String) (children : List Tree) : Tree :=
  let text := Text.trim text
  .mk tag.name (.ofPairs tag.attributes) (if text.isEmpty then none else some text) children

def Context.partsOf (context : Context) : Content → Except ReadError (String × List Tree)
  | .closed _ => .ok ("", [])
  | .broken ending => .error (context.breakError ending)
  | .text _ content rest => do
      let (text, children) ← context.partsOf rest
      return (content ++ text, children)
  | .element tag inside rest => do
      let (inner, grandchildren) ← context.partsOf inside
      let (text, children) ← context.partsOf rest
      return (text, treeOfParts tag inner grandchildren :: children)

def Context.treeOf (context : Context) (tag : Tag) (inside : Content) : Except ReadError Tree := do
  let (text, children) ← context.partsOf inside
  return treeOfParts tag text children

def Context.scalar (context : Context) (field : Field) (type : ScalarType) (tag : Tag)
    (inside : Content) : Except ReadError Value :=
  match type with
  | .tree => .tree <$> context.treeOf tag inside
  | type => do coerce context.strict field type (← context.textOf inside) (context.locate tag.position)

/-! ### Maps -/

structure EntryParts where
  key : Option String := none
  value : Option String := none
  position : Option Position := none

/-- The parts of an exploded entry with what one child gives: of several keys or values the last
counts, and other children are passed over. -/
def Context.entryPart (context : Context) (field : Field) (parts : EntryParts) (tag : Tag)
    (inside : Content) : Except ReadError EntryParts :=
  if tag.name = "key" then do
    let text ← context.textOf inside
    return { parts with key := some text }
  else if tag.name = "value" then do
    let text ← context.textOf inside
    return { parts with value := some (fieldText field text), position := some tag.position }
  else do
    context.passContent inside
    return parts

def Context.entryParts (context : Context) (field : Field) (parts : EntryParts) :
    Content → Except ReadError EntryParts
  | .closed _ => .ok parts
  | .broken ending => .error (context.breakError ending)
  | .text position content rest => do
      context.passText position content
      context.entryParts field parts rest
  | .element tag inside rest => do
      let parts ← context.entryPart field parts tag inside
      context.entryParts field parts rest

def Context.readEntry (context : Context) (id : EntityId) (field : TaggedField)
    (encoding : MapEncoding) (entries : OrderedMap String String) (tag : Tag) (inside : Content) :
    Read (OrderedMap String String) :=
  match encoding with
  | .inline => do
      let text ← context.textOf inside
      recordEntry id field.name (.key tag.name) (context.locate tag.position)
      return entries.set tag.name (fieldText field.declared text)
  | .explode =>
      if tag.name = field.itemTag then do
        let parts ← context.entryParts field.declared {} inside
        let key := parts.key.getD ""
        let position := parts.position.getD tag.position
        recordEntry id field.name (.key key) (context.locate position)
        return entries.set key (parts.value.getD "")
      else do
        context.passElement tag inside
        return entries

def Context.readEntries (context : Context) (id : EntityId) (field : TaggedField)
    (encoding : MapEncoding) (entries : OrderedMap String String) :
    Content → Read (OrderedMap String String)
  | .closed _ => return entries
  | .broken ending => throw (context.breakError ending)
  | .text position content rest => do
      context.passText position content
      context.readEntries id field encoding entries rest
  | .element tag inside rest => do
      let entries ← context.readEntry id field encoding entries tag inside
      context.readEntries id field encoding entries rest

/-! ### Start tags -/

structure Frame where
  id : EntityId
  layout : Layout
  /-- Where the start tag stands. -/
  location : Location

def withDefault (location : Location) (values : FieldValues) (field : TaggedField) :
    Except ReadError FieldValues :=
  match field.declared.default, field.declared.scalarType? with
  | some text, some type =>
      if type = .tree then .ok values
      else (coerce false field.declared type text location).map (values.set field.name)
  | _, _ => .ok values

def defaultValues (layout : Layout) (location : Location) : Except ReadError FieldValues :=
  layout.fields.foldlM (withDefault location) []

/-- Whether an attribute of a start tag may belong to a field: those with a prefix belong to others,
and so does the declaration of the namespace of a document. -/
def isOwnAttribute (atRoot : Bool) (name : String) : Bool :=
  !name.toList.contains ':' && !(atRoot && name = "xmlns")

def Context.readAttributes (context : Context) (frame : Frame) (tag : Tag) (atRoot : Bool) :
    FieldValues → List (String × String) → Read FieldValues
  | values, [] => return values
  | values, (name, raw) :: rest =>
      if isOwnAttribute atRoot name then
        match frame.layout.attributeField? name with
        | none =>
            if context.strict && context.schema.strictAttributes then
              throw (.unknownAttribute name tag.name frame.location)
            else context.readAttributes frame tag atRoot values rest
        | some field =>
            match field.declared.scalarType? with
            | none => context.readAttributes frame tag atRoot values rest
            | some type => do
                let value ← coerce context.strict field.declared type raw frame.location
                recordField frame.id field.name frame.location
                context.readAttributes frame tag atRoot (values.set field.name value) rest
      else context.readAttributes frame tag atRoot values rest

/-- A strict read insists on the attributes that are required. -/
def Context.requireAttributes (context : Context) (frame : Frame) (tag : Tag) :
    Except ReadError Unit :=
  let missing (field : TaggedField) : Bool :=
    field.declared.isRequired && !tag.attributes.any (·.1 == field.tag)
  match if context.strict then frame.layout.attributeFields.find? missing else none with
  | some field => .error (.missingAttribute field.tag tag.name frame.location)
  | none => .ok ()

def Context.beginEntity (context : Context) (className : String) (tag : Tag) (atRoot : Bool) :
    Read (Frame × FieldValues) := do
  match context.schema.find? className with
  | none => throw (.unknownClass className)
  | some resolved =>
      if resolved.declared.isAbstract then throw (.abstractClass className)
      let location := context.locate tag.position
      let frame : Frame := ⟨← newEntity location, resolved.layout, location⟩
      let values ← defaultValues frame.layout location
      let values ← context.readAttributes frame tag atRoot values tag.attributes
      context.requireAttributes frame tag
      return (frame, values)

def Context.readContentField (context : Context) (frame : Frame) (values : FieldValues)
    (field : TaggedField) (tag : Tag) (inside : Content) : Read FieldValues := do
  match field.declared.scalarType? with
  | none =>
      context.passContent inside
      return values
  | some type =>
      let value ← context.scalar field.declared type tag inside
      recordField frame.id field.name frame.location
      return values.set field.name value

/-! ### Entities and their children -/

abbrev ChildReader := Frame → FieldValues → Read FieldValues

/-- The entity of a class whose element is given.  `children` reads the children in it. -/
def Context.entity (context : Context) (className : String) (tag : Tag) (inside : Content)
    (atRoot : Bool) (children : ChildReader) : Read Entity := do
  let (frame, values) ← context.beginEntity className tag atRoot
  let values ←
    match frame.layout.contentField? with
    | some field => context.readContentField frame values field tag inside
    | none => children frame values
  return .mk frame.id className values

def Context.item (context : Context) (field : TaggedField) (type : ItemType) (tag : Tag)
    (inside : Content) (children : ChildReader) : Read Value :=
  match type with
  | .entity className => .entity <$> context.entity className tag inside false children
  | .scalar type => context.scalar field.declared type tag inside

/-- Whether the places of items of the type are recorded by their owner; entities have places of
their own. -/
def isRecorded : ItemType → Bool
  | .entity _ => false
  | .scalar _ => true

def recordCollection (id : EntityId) (field : String) (type : ItemType) (location : Location) :
    Read Unit :=
  if isRecorded type then recordField id field location else pure ()

/-- What an item added at a position goes by: members of a set by their text, all others by
position. -/
def itemKey (collection : Collection) (value : Value) (position : Nat) : EntryKey :=
  match collection, value.scalarText? with
  | .set, some text => .member text
  | _, _ => .index position

def Context.addItem (context : Context) (id : EntityId) (field : TaggedField) (collection : Collection)
    (type : ItemType) (tag : Tag) (holder value : Value) : Read Value := do
  let (holder, added) := holder.push value
  if let some position := added then
    if isRecorded type then
      recordEntry id field.name (itemKey collection value position) (context.locate tag.position)
  return holder

/-- The tags taken so far with that of one more field.  A field of one element must not be given
twice, be it by the one tag or by the other. -/
def Context.takeTag (context : Context) (field : TaggedField) (seen : List String) (tag : Tag) :
    Except ReadError (List String) :=
  if field.declared.isUnwrapped then .ok seen
  else if seen.contains field.tag then
    .error (.duplicateElement tag.name (context.locate tag.position))
  else .ok (field.tag :: seen)

/-- Adds an item of an unwrapped list or set to what its field holds, which begins with the first
item. -/
def Context.keepItem (context : Context) (frame : Frame) (values : FieldValues) (field : TaggedField)
    (collection : Collection) (type : ItemType) (tag : Tag) (value : Value) : Read FieldValues := do
  recordCollection frame.id field.name type (context.locate tag.position)
  let holder := (values.get? field.name).getD (.collection collection [])
  let holder ← context.addItem frame.id field collection type tag holder value
  return values.set field.name holder

def Context.readMap (context : Context) (frame : Frame) (values : FieldValues) (field : TaggedField)
    (encoding : MapEncoding) (tag : Tag) (inside : Content) : Read FieldValues := do
  recordField frame.id field.name (context.locate tag.position)
  let entries ← context.readEntries frame.id field encoding [] inside
  return values.set field.name (.map entries)

abbrev ItemsReader := Collection → ItemType → Read Value

def Context.wrapped (context : Context) (frame : Frame) (values : FieldValues) (field : TaggedField)
    (collection : Collection) (type : ItemType) (tag : Tag) (items : ItemsReader) :
    Read FieldValues := do
  recordCollection frame.id field.name type (context.locate tag.position)
  let holder ← items collection type
  return values.set field.name holder

def Context.unwrapped (context : Context) (frame : Frame) (values : FieldValues) (field : TaggedField)
    (collection : Collection) (type : ItemType) (tag : Tag) (inside : Content)
    (children : ChildReader) : Read FieldValues := do
  let value ← context.item field type tag inside children
  context.keepItem frame values field collection type tag value

/-- Sets the field that a child element belongs to.  `children` reads the children in that element,
and `items` its items. -/
def Context.field (context : Context) (frame : Frame) (values : FieldValues) (field : TaggedField)
    (tag : Tag) (inside : Content) (children : ChildReader) (items : ItemsReader) :
    Read FieldValues :=
  match field.declared.kind with
  | .scalar type => do
      let value ← context.scalar field.declared type tag inside
      recordField frame.id field.name (context.locate tag.position)
      return values.set field.name value
  | .one target => do
      let entity ← context.entity target tag inside false children
      return values.set field.name (.entity entity)
  | .many collection type true => context.wrapped frame values field collection type tag items
  | .many collection type false =>
      context.unwrapped frame values field collection type tag inside children
  | .map encoding => context.readMap frame values field encoding tag inside

mutual

/-- Reads the children of an entity up to its end tag.  `seen` holds the tags that are taken. -/
def Context.readChildren (context : Context) (frame : Frame) (values : FieldValues)
    (seen : List String) (content : Content) : Read FieldValues :=
  match content with
  | .closed _ => return values
  | .broken ending => throw (context.breakError ending)
  | .text position text rest => do
      context.passText position text
      context.readChildren frame values seen rest
  | .element tag inside rest =>
      match frame.layout.elementField? tag.name with
      | none => do
          context.passElement tag inside
          context.readChildren frame values seen rest
      | some field => do
          let seen ← context.takeTag field seen tag
          let values ← context.field frame values field tag inside
            (fun inner values => context.readChildren inner values [] inside)
            (fun collection type => context.readItems frame.id field collection type
              (.collection collection []) inside)
          context.readChildren frame values seen rest
termination_by structural content

def Context.readItems (context : Context) (id : EntityId) (field : TaggedField)
    (collection : Collection) (type : ItemType) (holder : Value) (content : Content) : Read Value :=
  match content with
  | .closed _ => return holder
  | .broken ending => throw (context.breakError ending)
  | .text position text rest => do
      context.passText position text
      context.readItems id field collection type holder rest
  | .element tag inside rest =>
      if tag.name = field.itemTag then do
        let value ← context.item field type tag inside fun inner values =>
          context.readChildren inner values [] inside
        let holder ← context.addItem id field collection type tag holder value
        context.readItems id field collection type holder rest
      else do
        context.passElement tag inside
        context.readItems id field collection type holder rest
termination_by structural content

end

def Context.childrenIn (context : Context) (inside : Content) : ChildReader := fun frame values =>
  context.readChildren frame values [] inside

def Context.itemsIn (context : Context) (id : EntityId) (field : TaggedField) (inside : Content) :
    ItemsReader := fun collection type =>
  context.readItems id field collection type (.collection collection []) inside

def Context.readEntity (context : Context) (className : String) (tag : Tag) (inside : Content)
    (atRoot : Bool) : Read Entity :=
  context.entity className tag inside atRoot (context.childrenIn inside)

def Context.readField (context : Context) (frame : Frame) (values : FieldValues)
    (field : TaggedField) (tag : Tag) (inside : Content) : Read FieldValues :=
  context.field frame values field tag inside (context.childrenIn inside)
    (context.itemsIn frame.id field inside)

end Trellis.Reading
