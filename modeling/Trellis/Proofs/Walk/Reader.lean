import Trellis.Reading.Access

/-!
Reading an element with a cursor, one token after the other.

A reader of content is handed what an element holds.  A walk is handed a cursor on a start tag
instead and takes the tokens itself: it sees no further than the last token it has asked for, and
where it leaves the cursor is where the next walk begins.  Both make entities in the same way; only
the way through the document differs.

A loop of a walk takes at least one token in each step, so it is given as many steps as tokens are
left and one more.  A walk whose steps run out has no outcome; none ever does.
-/

namespace Trellis.Reading

open Trellis.Graph (Entity Tree Value)
open Markup (Tag)
open Schema (Collection Field ItemType Layout MapEncoding TaggedField)

structure Walker where
  cursor : Cursor
  session : Session

/-- A part of a read that takes its tokens from a cursor. -/
abbrev Walk := ExceptT ReadError (StateT Walker Option)

namespace Walk

def move {α : Type} (go : Cursor → Cursor.Outcome α) : Walk α := fun walker =>
  let (outcome, cursor) := go walker.cursor
  some (outcome, { walker with cursor })

def still {α : Type} (read : Read α) : Walk α := fun walker =>
  match read walker.session with
  | .ok (value, session) => some (.ok value, { walker with session })
  | .error error => some (.error error, walker)

def look {α : Type} (view : Cursor → α) : Walk α := fun walker =>
  some (.ok (view walker.cursor), walker)

/-- What comes of a loop that has no step left. -/
def stuck {α : Type} : Walk α := fun _ => none

/-- A loop with as many steps as tokens are left, and one more for the end of the document. -/
def loop {α : Type} (walk : Nat → Walk α) : Walk α := fun walker =>
  walk (walker.cursor.rest.length + 1) walker

end Walk

def Cursor.tag (cursor : Cursor) : Tag :=
  ⟨cursor.current.name, cursor.current.attributes, cursor.current.position⟩

/-! ### Text, trees and entries of maps -/

/-- The tokens that the cursor goes to. -/
def Walk.tokens : Tokens Walk where
  next := Walk.move Cursor.next
  tag := Walk.look Cursor.tag
  text := Walk.look (·.current.text)
  place := Walk.look Cursor.location

def walkParts (steps : Nat) (text : String) (children : List Tree) : Walk (String × List Tree) :=
  match steps with
  | 0 => Walk.stuck
  | steps + 1 => Walk.tokens.parts (walkParts steps) text children

/-- The tree of the element under the cursor. -/
def walkTree : Walk Tree :=
  Walk.tokens.tree (Walk.loop fun steps => walkParts steps "" [])

/-- The element under the cursor. -/
def Context.walking (context : Context) : Access Walk where
  context
  tag := Walk.look Cursor.tag
  text := Walk.move Cursor.nextText
  tree := walkTree
  skip := Walk.move Cursor.skipElement
  begin className tag atRoot := Walk.still (context.beginEntity className tag atRoot)
  still := Walk.still

def Context.walkEntryParts (context : Context) (field : Field) (steps : Nat) (parts : EntryParts) :
    Walk EntryParts :=
  match steps with
  | 0 => Walk.stuck
  | steps + 1 =>
      atNextTag (Walk.move (Cursor.nextTag context.strict)) parts do
        let parts ← context.walking.part field parts
        context.walkEntryParts field steps parts

/-- The parts of the exploded entry under the cursor. -/
def Context.walkEntry (context : Context) (field : Field) : Walk EntryParts :=
  Walk.loop fun steps => context.walkEntryParts field steps {}

def Context.walkEntries (context : Context) (id : EntityId) (field : TaggedField)
    (encoding : MapEncoding) (steps : Nat) (entries : OrderedMap String String) :
    Walk (OrderedMap String String) :=
  match steps with
  | 0 => Walk.stuck
  | steps + 1 =>
      atNextTag (Walk.move (Cursor.nextTag context.strict)) entries do
        let entries ← context.walking.mapItem id field encoding entries
          (context.walkEntry field.declared)
        context.walkEntries id field encoding steps entries

/-- Reads all entries of a map. -/
def Context.allEntries (context : Context) (id : EntityId) (field : TaggedField) : EntriesOf Walk :=
  fun encoding => Walk.loop fun steps => context.walkEntries id field encoding steps []

def Context.walkMap (context : Context) (frame : Frame) (values : FieldValues) (field : TaggedField)
    (encoding : MapEncoding) : Walk FieldValues :=
  context.walking.map frame values field (context.allEntries frame.id field encoding)

/-! ### Entities and their children -/

def Context.walkEntity (context : Context) (className : String) (atRoot : Bool)
    (children : ChildrenOf Walk) : Walk Entity :=
  context.walking.entity className atRoot children

def Context.walkItem (context : Context) (field : TaggedField) (type : ItemType)
    (children : ChildrenOf Walk) : Walk Value := do
  let (_, value) ← context.walking.item field type children
  return value

def Context.walkWrapped (context : Context) (frame : Frame) (values : FieldValues)
    (field : TaggedField) (collection : Collection) (type : ItemType) (items : ItemsOf Walk) :
    Walk FieldValues :=
  context.walking.wrapped frame values field collection type items

def Context.walkUnwrapped (context : Context) (frame : Frame) (values : FieldValues)
    (field : TaggedField) (collection : Collection) (type : ItemType) (children : ChildrenOf Walk) :
    Walk FieldValues :=
  context.walking.unwrapped frame values field collection type children

def Context.walkField (context : Context) (frame : Frame) (values : FieldValues)
    (field : TaggedField) (children : ChildrenOf Walk) (items : ItemsOf Walk) : Walk FieldValues :=
  context.walking.field frame values field children items (context.allEntries frame.id field)

mutual

/-- Reads the children of an entity up to its end tag.  `seen` holds the tags that are taken. -/
def Context.walkChildren (context : Context) (steps : Nat) (frame : Frame) (values : FieldValues)
    (seen : List String) : Walk FieldValues :=
  match steps with
  | 0 => Walk.stuck
  | steps + 1 =>
      atNextTag (Walk.move (Cursor.nextTag context.strict)) values do
        let (values, seen) ← context.walking.child frame values seen
          (fun inner values => context.walkChildren steps inner values [])
          (fun field collection type =>
            context.walkItems steps frame.id field collection type (.collection collection []))
          (context.allEntries frame.id)
        context.walkChildren steps frame values seen
termination_by structural steps

def Context.walkItems (context : Context) (steps : Nat) (id : EntityId) (field : TaggedField)
    (collection : Collection) (type : ItemType) (holder : Value) : Walk Value :=
  match steps with
  | 0 => Walk.stuck
  | steps + 1 =>
      atNextTag (Walk.move (Cursor.nextTag context.strict)) holder do
        let holder ← context.walking.addItem id field collection type holder fun inner values =>
          context.walkChildren steps inner values []
        context.walkItems steps id field collection type holder
termination_by structural steps

end

/-- Reads all children of an entity. -/
def Context.allChildren (context : Context) : ChildrenOf Walk := fun frame values =>
  Walk.loop fun steps => context.walkChildren steps frame values []

/-- Reads all items of a field. -/
def Context.allItems (context : Context) (id : EntityId) (field : TaggedField) : ItemsOf Walk :=
  fun collection type => Walk.loop fun steps =>
    context.walkItems steps id field collection type (.collection collection [])

/-! ### Documents -/

def walkToRoot (layout : Layout) (steps : Nat) : Walk Unit :=
  match steps with
  | 0 => Walk.stuck
  | steps + 1 => Walk.tokens.toRoot layout (walkToRoot layout steps)

def Context.walkDocument (context : Context) (className : String) : Walk ObjectGraph :=
  context.walking.document className (fun layout => Walk.loop (walkToRoot layout))
    context.allChildren (Walk.look (·.current.encoding))

theorem Context.walkDocument_eq (context : Context) (className : String) :
    context.walkDocument className =
      match context.schema.layout? className with
      | none => Walk.still (throw (.unknownClass className))
      | some layout => Walk.loop (walkToRoot layout) >>= fun _ =>
          context.walking.root className layout context.allChildren
            (Walk.look (·.current.encoding)) :=
  rfl

end Trellis.Reading
