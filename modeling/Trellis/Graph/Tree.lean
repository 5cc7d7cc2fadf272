import Trellis.OrderedMap

/-!
Element trees: elements kept as they stand, with every attribute, all the elements inside, and the
text between them joined into one.
-/

namespace Trellis.Graph

/-- An element: its name, its attributes in the order of the document, its text if it has any, and
the elements inside it. -/
inductive Tree where
  | mk (name : String) (attributes : OrderedMap String String) (value : Option String)
      (children : List Tree)

namespace Tree

def name : Tree → String
  | mk name _ _ _ => name

def attributes : Tree → OrderedMap String String
  | mk _ attributes _ _ => attributes

def value : Tree → Option String
  | mk _ _ value _ => value

def children : Tree → List Tree
  | mk _ _ _ children => children

def leaf (name : String) : Tree :=
  mk name [] none []

def withAttribute (tree : Tree) (key text : String) : Tree :=
  mk tree.name (tree.attributes.set key text) tree.value tree.children

def withChild (tree child : Tree) : Tree :=
  mk tree.name tree.attributes tree.value (tree.children ++ [child])

def withValue (tree : Tree) (text : String) : Tree :=
  mk tree.name tree.attributes (some text) tree.children

def attribute? (tree : Tree) (key : String) : Option String :=
  tree.attributes.get? key

def child? (tree : Tree) (name : String) : Option Tree :=
  tree.children.find? (·.name == name)

def childrenNamed (tree : Tree) (name : String) : List Tree :=
  tree.children.filter (·.name == name)

mutual

/-- Equality of trees, in which the order of attributes does not count and that of children does. -/
def equal : Tree → Tree → Bool
  | mk name attributes value children, mk name' attributes' value' children' =>
      name == name' && attributes.agrees attributes' && value == value'
        && allEqual children children'
termination_by structural tree => tree

def allEqual : List Tree → List Tree → Bool
  | [], [] => true
  | tree :: rest, tree' :: rest' => tree.equal tree' && allEqual rest rest'
  | _, _ => false
termination_by structural trees => trees

end

end Tree

end Trellis.Graph
