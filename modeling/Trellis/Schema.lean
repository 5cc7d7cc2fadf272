import Trellis.Schema.Layout

/-!
Schemas: the classes that documents are read by, each with its layout.

A schema is only ever the result of checking declarations, so a reader can rely on what the check
establishes.
-/

namespace Trellis

structure Schema.ResolvedClass where
  declared : Schema.Class
  layout : Schema.Layout
  deriving DecidableEq, Repr

structure Schema where
  classes : List Schema.ResolvedClass
  root : String
  naming : Schema.Naming
  strictAttributes : Bool
  locationTracker : Option String
  sourceTracker : Option String
  deriving DecidableEq, Repr

def Schema.find? (schema : Schema) (className : String) : Option Schema.ResolvedClass :=
  schema.classes.find? (·.declared.name == className)

def Schema.layout? (schema : Schema) (className : String) : Option Schema.Layout :=
  (schema.find? className).map (·.layout)

def Schema.tracksLocations (schema : Schema) : Bool :=
  schema.locationTracker.isSome

/-- Provenance is attached to recorded places, so it needs both trackers. -/
def Schema.tracksSources (schema : Schema) : Bool :=
  schema.locationTracker.isSome && schema.sourceTracker.isSome

/-- Whether the class stands for places or provenance and is not meant to be read. -/
def Schema.isTrackingSupport (schema : Schema) (className : String) : Bool :=
  schema.locationTracker == some className || schema.sourceTracker == some className

end Trellis
