import Trellis.Schema

/-!
Checking declarations and resolving them into a schema.

A schema has one root class, which can be instantiated; every class it names is declared; no class
is its own ancestor; and what stands in an attribute or between the tags of an entity can be written
there.  The first rule broken is the error, in the order in which `Declarations.build` asks.
-/

namespace Trellis.Schema

inductive SchemaError where
  | noRoot
  | multipleRoots (names : List String)
  | abstractRoot (name : String)
  | duplicateClass (name : String)
  | unknownClass (name : String)
  | unknownSuperclass (className superclass : String)
  /-- The classes met on the way up, ending with the one met before. -/
  | inheritanceCycle (path : List String)
  | unknownTarget (className field target : String)
  | multipleContentFields (className : String)
  | notTextual (className field : String)
  | unknownTracker (name : String)
  deriving DecidableEq, Repr

def SchemaError.message : SchemaError → String
  | .noRoot => "No root class declared"
  | .multipleRoots names => "Multiple root classes declared: " ++ ", ".intercalate names
  | .abstractRoot name => "Root class '" ++ name ++ "' is abstract"
  | .duplicateClass name => "Class '" ++ name ++ "' is declared twice"
  | .unknownClass name => "Unknown class '" ++ name ++ "'"
  | .unknownSuperclass className superclass =>
      "Class '" ++ className ++ "' extends unknown class '" ++ superclass ++ "'"
  | .inheritanceCycle path => "Inheritance cycle: " ++ " -> ".intercalate path
  | .unknownTarget className field target =>
      "Field '" ++ className ++ "." ++ field ++ "' refers to unknown class '" ++ target ++ "'"
  | .multipleContentFields className =>
      "Class '" ++ className ++ "' declares more than one content field"
  | .notTextual className field =>
      "Field '" ++ className ++ "." ++ field
        ++ "' must be a textual scalar to be an attribute or content"
  | .unknownTracker name => "Tracker class '" ++ name ++ "' is not declared"

/-! ### Names -/

def firstRepeated? (seen : List String) : List String → Option String
  | [] => none
  | name :: rest => if seen.contains name then some name else firstRepeated? (name :: seen) rest

def Declarations.find? (declarations : Declarations) (className : String) : Option Class :=
  declarations.classes.find? (·.name == className)

def Declarations.declares (declarations : Declarations) (className : String) : Bool :=
  (declarations.find? className).isSome

/-- The root class, which must be one, declared and concrete. -/
def Declarations.checkedRoot (declarations : Declarations) : Except SchemaError String :=
  match declarations.roots with
  | [] => .error .noRoot
  | [root] =>
      match declarations.find? root with
      | none => .error (.unknownClass root)
      | some declared => if declared.isAbstract then .error (.abstractRoot root) else .ok root
  | roots => .error (.multipleRoots roots)

def Declarations.unknownTracker? (declarations : Declarations) : Option String :=
  [declarations.locationTracker, declarations.sourceTracker].findSome? fun tracker =>
    tracker.filter fun name => !declarations.declares name

/-! ### Ancestors -/

def unvisited (classes path : List Class) : List Class :=
  classes.filter fun declared => !path.any (·.name == declared.name)

private theorem unvisited_length_lt {classes path : List Class} {next : Class}
    (declared : next ∈ classes)
    (fresh : ¬ path.any (·.name == next.name) = true) :
    (unvisited classes (next :: path)).length < (unvisited classes path).length := by
  have smaller : unvisited classes (next :: path) =
      (unvisited classes path).filter fun declared => !(next.name == declared.name) := by
    simp only [unvisited, List.filter_filter, List.any_cons, Bool.not_or]
  rw [smaller]
  refine List.length_filter_lt_length_iff_exists.mpr ⟨next, ?_, by simp⟩
  simp only [unvisited, List.mem_filter]
  exact ⟨declared, by simpa using fresh⟩

/-- The ancestors of a class, topmost first, followed by `path`, which begins with the class itself
and holds those met on the way up to it, last met first. -/
def lineageFrom (classes : List Class) (path : List Class) (current : Class) :
    Except SchemaError (List Class) :=
  match current.superclass with
  | none => .ok path
  | some parent =>
      match found : classes.find? (·.name == parent) with
      | none => .error (.unknownSuperclass current.name parent)
      | some next =>
          if fresh : path.any (·.name == next.name) = true then
            .error (.inheritanceCycle (path.reverse.map (·.name) ++ [next.name]))
          else
            have := unvisited_length_lt (List.mem_of_find?_eq_some found) fresh
            lineageFrom classes (next :: path) next
termination_by (unvisited classes path).length

def Declarations.lineage (declarations : Declarations) (declared : Class) :
    Except SchemaError (List Class) :=
  lineageFrom declarations.classes [declared] declared

/-! ### Layouts -/

/-- Whether the field may be an attribute or content if it is marked as one.  A tree is content that
takes in its owner's whole element. -/
def Field.fitsItsPlace (field : Field) : Bool :=
  if field.isAttribute || field.isContent then
    match field.scalarType? with
    | some type => type.isTextual || (field.isContent && !field.isAttribute)
    | none => false
  else true

def Declarations.fieldProblem? (declarations : Declarations) (className : String)
    (field : TaggedField) : Option SchemaError :=
  if !field.declared.fitsItsPlace then some (.notTextual className field.name)
  else
    match field.declared.target? with
    | some target =>
        if declarations.declares target then none
        else some (.unknownTarget className field.name target)
    | none => none

def Declarations.layoutProblem? (declarations : Declarations) (className : String)
    (layout : Layout) : Option SchemaError :=
  if 1 < layout.fields.countP (·.declared.isContent) then some (.multipleContentFields className)
  else layout.fields.findSome? (declarations.fieldProblem? className)

def Declarations.resolve (declarations : Declarations) (declared : Class) :
    Except SchemaError ResolvedClass := do
  let lineage ← declarations.lineage declared
  let layout := declared.layout declarations.naming lineage
  match declarations.layoutProblem? declared.name layout with
  | some problem => .error problem
  | none => .ok { declared, layout }

/-- The schema that the declarations describe, or the first rule they break. -/
def Declarations.build (declarations : Declarations) : Except SchemaError Schema := do
  if let some name := firstRepeated? [] (declarations.classes.map (·.name)) then
    throw (.duplicateClass name)
  let root ← declarations.checkedRoot
  if let some name := declarations.unknownTracker? then
    throw (.unknownTracker name)
  let classes ← declarations.classes.mapM declarations.resolve
  return { classes, root,
           naming := declarations.naming
           strictAttributes := declarations.strictAttributes
           locationTracker := declarations.locationTracker
           sourceTracker := declarations.sourceTracker }

end Trellis.Schema
