/-!
Places in a document: a line and a column, both counted from one, and the provenance a caller may
attach to every place of one read.
-/

namespace Trellis

/-- A line and a column, both counted from one; a column counts characters. -/
structure Position where
  line : Nat
  column : Nat
  deriving DecidableEq, Repr

structure Source where
  /-- What is being read, such as a coordinate of a module. -/
  modelId : Option String
  location : Option String
  deriving DecidableEq, Repr

structure Location extends Position where
  source : Option Source
  deriving DecidableEq, Repr

/-- The place in words; a source is named only if it says where it is stored. -/
def Location.describe (place : Location) : String :=
  let position := "line " ++ toString place.line ++ ", column " ++ toString place.column
  match place.source.bind Source.location with
  | some path => position ++ " in '" ++ path ++ "'"
  | none => position

/-- The identity of one entity in a graph: its rank in the order of start tags, from zero. -/
structure EntityId where
  value : Nat
  deriving DecidableEq, Repr

def EntityId.describe (id : EntityId) : String :=
  "#" ++ toString id.value

end Trellis
