import Trellis.Proofs.Markup.Demand
import Trellis.Reading.Access
import Trellis.Reading.DocumentCursor
import Trellis.Reading.Reader

/-!
Reading a document on demand.

A walk has all tokens of the document before it and is given the steps of its loops beforehand.  A
puller has neither: it asks a tokenizer for one token after the other, its loops go on until a token
ends them, and its readers call each other as the classes of the schema do.  Nothing in its
definition says that it comes to an end.  It keeps what its calls have been answered.

Every loop is handed the context, which stays the same throughout a read.
-/

namespace Trellis.Reading

open Trellis.Graph (Entity Tree Value)
open Markup (Stop Tag Token Tokenizer)
open Schema (Collection Field ItemType Layout MapEncoding ScalarType TaggedField)

/-- What a reader is told of what a tokenizer answers. -/
def heard : Except Stop Token → Except ReadError Mark
  | .ok token => .ok (Cursor.markOf token)
  | .error (.finished _ _) => .ok .finished
  | .error (.mistake error _) => .error (.markup error)

def Current.hearing (current : Current) : Except Stop Token → Current
  | .ok token => current.after token
  | .error (.finished position encoding) => ⟨"", [], "", position, encoding⟩
  | .error (.mistake _ glimpse) => current.glimpsed glimpse

structure Puller where
  tokenizer : Tokenizer
  current : Current
  source : Option Source
  session : Session
  /-- What the calls for a token have been answered, last first. -/
  answers : List (Except ReadError Mark)

namespace Puller

def fresh (tokenizer : Tokenizer) (current : Current) (source : Option Source) (session : Session) :
    Puller :=
  ⟨tokenizer, current, source, session, []⟩

def ofDocument (extended : Bool) (document : String) (source : Option Source) : Puller :=
  fresh (.ofDocument extended document) .initial source .initial

def location (puller : Puller) : Location :=
  ⟨puller.current.position, puller.source⟩

def tag (puller : Puller) : Tag :=
  ⟨puller.current.name, puller.current.attributes, puller.current.position⟩

def ask (puller : Puller) : Except ReadError Mark × Puller :=
  let (found, tokenizer) := puller.tokenizer.next
  let answer := heard found
  (answer, { puller with
    tokenizer, current := puller.current.hearing found, answers := answer :: puller.answers })

/-- After some calls for tokens, whatever they have been answered. -/
def asked (extended : Bool) (document : String) (source : Option Source) : Nat → Puller
  | 0 => ofDocument extended document source
  | calls + 1 => (asked extended document source calls).ask.2

end Puller

/-- A part of a read that asks for its tokens.  Without an outcome it goes on forever. -/
abbrev Pull := ExceptT ReadError (StateT Puller Option)

namespace Pull

def still {α : Type} (read : Read α) : Pull α := fun puller =>
  match read puller.session with
  | .ok (value, session) => some (.ok value, { puller with session })
  | .error error => some (.error error, puller)

def look {α : Type} (view : Puller → α) : Pull α := fun puller =>
  some (.ok (view puller), puller)

def refuse {α : Type} (refusal : Location → ReadError) : Pull α := do
  let place ← look Puller.location
  throw (refusal place)

def next : Pull Mark := fun puller =>
  some puller.ask

end Pull

/-! ### Loops over tokens -/

/-- Asks for tokens up to a start or end tag.  Blank text is passed over; a strict read refuses other
text. -/
def Context.pullTag (context : Context) : Pull Mark := do
  match ← Pull.next with
  | .text => do
      let content ← Pull.look (·.current.text)
      if context.strict && !Text.isBlankText content then Pull.refuse .unexpectedText
      else context |>.pullTag
  | .finished => Pull.refuse .unexpectedEnd
  | mark => return mark
partial_fixpoint

def Context.pullText (context : Context) (text : String) : Pull String := do
  match ← Pull.next with
  | .text => do
      let content ← Pull.look (·.current.text)
      context |>.pullText (text ++ content)
  | .closing => return text
  | .opening => do
      let tag ← Pull.look Puller.tag
      Pull.refuse (.unexpectedElement tag.name)
  | .finished => Pull.refuse .unexpectedEnd
partial_fixpoint

/-- Asks for tokens until `depth` elements more have ended than begun. -/
def Context.skip (context : Context) (depth : Nat) : Pull Unit := do
  match ← Pull.next with
  | .opening => context |>.skip (depth + 1)
  | .closing => if depth ≤ 1 then return () else context |>.skip (depth - 1)
  | .text => context |>.skip depth
  | .finished => Pull.refuse .unexpectedEnd
partial_fixpoint

/-! ### What is inside an element -/

/-- The tokens that are asked for. -/
def Pull.tokens : Tokens Pull where
  next := Pull.next
  tag := Pull.look Puller.tag
  text := Pull.look (·.current.text)
  place := Pull.look Puller.location

def Context.pullParts (context : Context) (text : String) (children : List Tree) :
    Pull (String × List Tree) :=
  Pull.tokens.parts (fun text children => context |>.pullParts text children) text children
partial_fixpoint

/-- The element whose start tag was asked for last. -/
def Context.pulling (context : Context) : Access Pull where
  context
  tag := Pull.look Puller.tag
  text := context.pullText ""
  tree := Pull.tokens.tree (context.pullParts "" [])
  skip := context.skip 1
  begin className tag atRoot := Pull.still (context.beginEntity className tag atRoot)
  still := Pull.still

def Context.pullEntryParts (context : Context) (field : Field) (parts : EntryParts) :
    Pull EntryParts :=
  atNextTag context.pullTag parts do
    let parts ← context.pulling.part field parts
    context |>.pullEntryParts field parts
partial_fixpoint

def Context.pullEntries (context : Context) (id : EntityId) (field : TaggedField)
    (encoding : MapEncoding) (entries : OrderedMap String String) :
    Pull (OrderedMap String String) :=
  atNextTag context.pullTag entries do
    let entries ← context.pulling.mapItem id field encoding entries
      (context.pullEntryParts field.declared {})
    context |>.pullEntries id field encoding entries
partial_fixpoint

mutual

/-- Reads the children of an entity up to its end tag.  `seen` holds the tags that are taken. -/
def Context.pullChildren (context : Context) (frame : Frame) (values : FieldValues)
    (seen : List String) : Pull FieldValues :=
  atNextTag context.pullTag values do
    let (values, seen) ← context.pulling.child frame values seen
      (fun inner values => context |>.pullChildren inner values [])
      (fun field collection type =>
        context |>.pullItems frame.id field collection type (.collection collection []))
      (fun field encoding => context.pullEntries frame.id field encoding [])
    context |>.pullChildren frame values seen
partial_fixpoint

def Context.pullItems (context : Context) (id : EntityId) (field : TaggedField)
    (collection : Collection) (type : ItemType) (holder : Value) : Pull Value :=
  atNextTag context.pullTag holder do
    let holder ← context.pulling.addItem id field collection type holder
      fun inner values => context |>.pullChildren inner values []
    context |>.pullItems id field collection type holder
partial_fixpoint

end

/-! ### Documents -/

def Context.pullToRoot (context : Context) (layout : Layout) : Pull Unit :=
  Pull.tokens.toRoot layout (context |>.pullToRoot layout)
partial_fixpoint

def Context.pullDocument (context : Context) (className : String) : Pull ObjectGraph :=
  context.pulling.document className context.pullToRoot
    (fun frame values => context.pullChildren frame values []) (Pull.look (·.current.encoding))

def Reader.pullAs (reader : Reader) (className document : String) (source : Option Source) :
    Option (Except ReadError ObjectGraph × Puller) :=
  let context : Context :=
    { schema := reader.schema
      strict := reader.options.strict
      source := if reader.schema.tracksSources then source else none }
  context.pullDocument className (.ofDocument reader.options.extended document context.source)

end Trellis.Reading
