import Trellis.Calendar.DateTime
import Trellis.Graph.Tree
import Trellis.Location
import Trellis.Number.BinaryText
import Trellis.Number.FixedInt
import Trellis.Schema.Declaration

/-!
The graph that a read produces: entities, and the typed values of their fields.

An entity keeps its fields in the order in which they were first set.  Equality looks at what fields
are bound to; neither their order nor the identities of entities play a part in it.
-/

namespace Trellis.Graph

open Calendar (DateTime)
open Number (Binary FixedInt Precision)
open Schema (Collection)

mutual

inductive Value where
  | boolean (truth : Bool)
  | character (c : Char)
  | integer (number : FixedInt)
  | floating (precision : Precision) (number : Binary)
  | text (content : String)
  | date (moment : DateTime)
  | tree (root : Tree)
  | entity (inner : Entity)
  | collection (kind : Collection) (items : List Value)
  | map (entries : List (String × String))

inductive Entity where
  | mk (id : EntityId) (className : String) (fields : List (String × Value))

end

/-! ### Entities -/

namespace Entity

def id : Entity → EntityId
  | mk id _ _ => id

def className : Entity → String
  | mk _ className _ => className

def fields : Entity → OrderedMap String Value
  | mk _ _ fields => fields

def get? (entity : Entity) (field : String) : Option Value :=
  entity.fields.get? field

def contains (entity : Entity) (field : String) : Bool :=
  entity.fields.contains field

def set (entity : Entity) (field : String) (value : Value) : Entity :=
  mk entity.id entity.className (entity.fields.set field value)

end Entity

/-! ### Equality -/

mutual

/-- Equality of values of one kind.  Numbers compare as numbers, so a value that is no number
differs from itself. -/
def Value.equal : Value → Value → Bool
  | .boolean a, .boolean b => a == b
  | .character a, .character b => a == b
  | .integer a, .integer b => a == b
  | .floating p a, .floating q b => p == q && a.equal b
  | .text a, .text b => a == b
  | .date a, .date b => a == b
  | .tree a, .tree b => a.equal b
  | .entity a, .entity b => a.equal b
  | .collection k a, .collection l b => k == l && Value.allEqual a b
  | .map a, .map b => OrderedMap.agrees a b
  | _, _ => false
termination_by structural value => value

/-- Equality of entities of one class with the same fields, whatever their identities. -/
def Entity.equal : Entity → Entity → Bool
  | .mk _ className fields, .mk _ className' fields' =>
      className == className' && (OrderedMap.keys fields').all (OrderedMap.contains fields ·)
        && Value.fieldsEqual [] fields fields'
termination_by structural entity => entity

def Value.allEqual : List Value → List Value → Bool
  | [], [] => true
  | value :: rest, value' :: rest' => value.equal value' && Value.allEqual rest rest'
  | _, _ => false
termination_by structural values => values

/-- Whether the other fields bind every name among these to an equal value.  An entry behind another
one of the same name, listed in `seen`, does not count. -/
def Value.fieldsEqual (seen : List String) :
    List (String × Value) → OrderedMap String Value → Bool
  | [], _ => true
  | (name, value) :: rest, fields' =>
      (seen.contains name ||
        match fields'.get? name with
        | some value' => value.equal value'
        | none => false)
        && Value.fieldsEqual (name :: seen) rest fields'
termination_by structural fields => fields

end

/-! ### Views of a value -/

namespace Value

/-- The text of a scalar.  Trees, entities, collections and maps have none. -/
def scalarText? : Value → Option String
  | .boolean truth => some (if truth then "true" else "false")
  | .character c => some (String.singleton c)
  | .integer number => some number.text
  | .floating precision number => some (precision.text number)
  | .text content => some content
  | .date moment => some moment.text
  | .tree _ | .entity _ | .collection _ _ | .map _ => none

def text? : Value → Option String
  | .text content => some content
  | _ => none

def boolean? : Value → Option Bool
  | .boolean truth => some truth
  | _ => none

def integer? : Value → Option Int
  | .integer number => some number.value
  | _ => none

def double? : Value → Option Binary
  | .floating .single number => some number.widen
  | .floating .double number => some number
  | _ => none

def entity? : Value → Option Entity
  | .entity inner => some inner
  | _ => none

def items? : Value → Option (List Value)
  | .collection _ items => some items
  | _ => none

def map? : Value → Option (OrderedMap String String)
  | .map entries => some entries
  | _ => none

def tree? : Value → Option Tree
  | .tree root => some root
  | _ => none

/-- A list or set with one more item, and the place at which it was added.  A set that has an equal
item stays as it is, as does a value that holds no items. -/
def push (holder item : Value) : Value × Option Nat :=
  match holder with
  | .collection .list items => (.collection .list (items ++ [item]), some items.length)
  | .collection .set items =>
      if items.any (·.equal item) then (holder, none)
      else (.collection .set (items ++ [item]), some items.length)
  | _ => (holder, none)

end Value

end Trellis.Graph
