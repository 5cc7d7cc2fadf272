import Trellis.Reading.Binding

/-!
Reading whole documents against a schema.
-/

namespace Trellis.Reading

open Trellis.Graph (Entity)
open Markup (Document)

structure Options where
  /-- Whether the reader insists on documents of the schema: on known elements and attributes, on
  required attributes, on the root's name, on numbers that are numbers, and on no text between
  elements. -/
  strict : Bool := true
  /-- Whether characters can be written by the names that are not reserved. -/
  extended : Bool := true
  deriving DecidableEq, Repr

structure ObjectGraph where
  root : Entity
  encoding : String
  /-- Present if the schema tracks locations. -/
  locations : Option LocationMap

def Context.readDocument (context : Context) (className : String) (document : Document) :
    Except ReadError ObjectGraph :=
  match context.schema.layout? className with
  | none => .error (.unknownClass className)
  | some layout =>
      match document with
      | .empty (.failed error) => .error (.markup error)
      | .empty (.finished first _ _) => .error (.noElement layout.tag (context.locate first))
      | .rooted tag inside =>
          if context.strict && tag.name ≠ layout.tag then
            .error (.unexpectedRoot layout.tag tag.name (context.locate tag.position))
          else do
            let (root, session) ← (context.readEntity className tag inside true).run .initial
            return {
              root
              encoding := inside.encoding?.getD Markup.defaultEncoding
              locations := if context.schema.tracksLocations then some session.locations else none }

structure Reader where
  schema : Schema
  options : Options := {}

namespace Reader

def withOptions (reader : Reader) (options : Options) : Reader :=
  { reader with options }

def withStrict (reader : Reader) (strict : Bool) : Reader :=
  { reader with options := { reader.options with strict } }

def withExtended (reader : Reader) (extended : Bool) : Reader :=
  { reader with options := { reader.options with extended } }

/-- Reads a document whose root is an entity of the class, without asking whether it may be.  The
provenance counts only if the schema tracks it. -/
def readAs (reader : Reader) (className : String) (document : String) (source : Option Source) :
    Except ReadError ObjectGraph :=
  let context : Context :=
    { schema := reader.schema
      strict := reader.options.strict
      source := if reader.schema.tracksSources then source else none }
  context.readDocument className (.parse reader.options.extended document)

def read (reader : Reader) (document : String) : Except ReadError ObjectGraph :=
  reader.readAs reader.schema.root document none

def readFrom (reader : Reader) (document : String) (source : Source) :
    Except ReadError ObjectGraph :=
  reader.readAs reader.schema.root document (some source)

def readBytes (reader : Reader) (bytes : ByteArray) (source : Option Source) :
    Except ReadError ObjectGraph :=
  match String.fromUTF8? bytes with
  | none => .error .notUtf8
  | some document => reader.readAs reader.schema.root document source

/-- Reads a document whose root is an entity of the class, which must be the root class or one that
may stand alone, and no tracker. -/
def readClass (reader : Reader) (className : String) (document : String) :
    Except ReadError ObjectGraph :=
  match reader.schema.find? className with
  | none => .error (.unknownClass className)
  | some resolved =>
      let admitted := resolved.declared.name == reader.schema.root || resolved.declared.standalone
      if !admitted || reader.schema.isTrackingSupport className then
        .error (.notStandalone className)
      else reader.readAs className document none

end Reader

end Trellis.Reading
