import Trellis.Number.Binary
import Trellis.Number.FixedInt
import Trellis.Schema.Naming

/-!
What a schema declares: classes, their fields, and how each field is written in a document.

A field is a scalar, a single entity, a list or set of items, or a map of texts.  It is written as
an element unless it is marked as an attribute or as the content of its owner's element.  Everything
left unsaid here is filled in when the declarations are resolved into layouts.
-/

namespace Trellis.Schema

open Number (Precision Width)

inductive ScalarType where
  | boolean
  | character
  | integer (width : Width)
  | floating (precision : Precision)
  | text
  | date
  /-- An element kept with everything inside it. -/
  | tree
  deriving DecidableEq, Repr

def ScalarType.description : ScalarType → String
  | .boolean => "a boolean"
  | .character => "a character"
  | .integer .byte => "a byte"
  | .integer .short => "a short integer"
  | .integer .int => "an integer"
  | .integer .long => "a long integer"
  | .floating _ => "a floating point number"
  | .text => "a string"
  | .date => "a date"
  | .tree => "an element tree"

def ScalarType.isTextual : ScalarType → Bool
  | .tree => false
  | _ => true

inductive ItemType where
  | entity (className : String)
  | scalar (type : ScalarType)
  deriving DecidableEq, Repr

/-- A list keeps every item, a set the first of equal ones. -/
inductive Collection where
  | list
  | set
  deriving DecidableEq, Repr

/-- An inline entry is an element named by its key; an exploded one holds a `key` and a `value`. -/
inductive MapEncoding where
  | inline
  | explode
  deriving DecidableEq, Repr

inductive FieldKind where
  | scalar (type : ScalarType)
  | one (target : String)
  /-- Items stand in an element of their own if `wrapped`, else directly in the owner's. -/
  | many (collection : Collection) (item : ItemType) (wrapped : Bool)
  | map (encoding : MapEncoding)
  deriving DecidableEq, Repr

structure Field where
  name : String
  kind : FieldKind
  /-- The text that stands in for a scalar that the document does not give. -/
  default : Option String := none
  /-- A second tag under which the field may be written. -/
  otherTag : Option String := none
  tagName : Option String := none
  itemTag : Option String := none
  isAttribute : Bool := false
  isContent : Bool := false
  trims : Bool := true
  format : Option String := none
  /-- Whether a strict read insists on the attribute. -/
  isRequired : Bool := false
  deriving DecidableEq, Repr

def Field.scalarType? (field : Field) : Option ScalarType :=
  match field.kind with
  | .scalar type => some type
  | _ => none

def Field.target? (field : Field) : Option String :=
  match field.kind with
  | .one target => some target
  | .many _ (.entity target) _ => some target
  | _ => none

def Field.isUnwrapped (field : Field) : Bool :=
  match field.kind with
  | .many _ _ wrapped => !wrapped
  | _ => false

theorem Field.isUnwrapped_of_kind {field : Field} {collection : Collection} {type : ItemType}
    (kind : field.kind = .many collection type false) : field.isUnwrapped = true := by
  simp only [Field.isUnwrapped, kind, Bool.not_false]

theorem Field.kind_of_isUnwrapped {field : Field} (unwrapped : field.isUnwrapped = true) :
    ∃ collection type, field.kind = .many collection type false := by
  unfold Field.isUnwrapped at unwrapped
  split at unwrapped
  · rename_i collection type wrapped kind
    rw [Bool.not_eq_true'] at unwrapped
    rw [unwrapped] at kind
    exact ⟨collection, type, kind⟩
  · cases unwrapped

def Field.unwrapped (field : Field) : Field :=
  match field.kind with
  | .many collection item _ => { field with kind := .many collection item false }
  | _ => field

structure Class where
  name : String
  isAbstract : Bool := false
  superclass : Option String := none
  tagName : Option String := none
  /-- Whether a document may have an entity of the class at its root although it is not the root
  class. -/
  standalone : Bool := false
  fields : List Field := []
  deriving DecidableEq, Repr

structure Declarations where
  classes : List Class := []
  roots : List String := []
  naming : Naming := .lowerCamel
  strictAttributes : Bool := true
  /-- The class that stands for recorded places; naming one makes reads record them. -/
  locationTracker : Option String := none
  /-- The class that stands for provenance; it counts beside a location tracker only. -/
  sourceTracker : Option String := none
  deriving Repr

end Trellis.Schema
