import Trellis.Text.Words

/-!
How a tag is named when a declaration gives it no name of its own: by a convention that respells the
declared name, and, for the items of a collection, by the singular of the collection's tag.

The singular is found from the end of the name alone.  Letter case plays no part in recognising an
ending and is kept in what remains.
-/

namespace Trellis.Schema

inductive Naming where
  | asIs
  | lowerCamel
  | kebab
  | snake
  | pascal
  deriving DecidableEq, Repr

def Naming.apply : Naming → String → String
  | .asIs, name => name
  | .lowerCamel, name => Text.camelName name
  | .kebab, name => Text.separatedName '-' name
  | .snake, name => Text.separatedName '_' name
  | .pascal, name => Text.pascalName name

def irregularPlurals : List (List Char × List Char) :=
  [("aliases".toList, "alias".toList), ("analyses".toList, "analysis".toList),
   ("children".toList, "child".toList), ("criteria".toList, "criterion".toList),
   ("indices".toList, "index".toList), ("matrices".toList, "matrix".toList),
   ("people".toList, "person".toList), ("statuses".toList, "status".toList),
   ("vertices".toList, "vertex".toList)]

def sibilantEndings : List (List Char) :=
  ["ches".toList, "shes".toList, "sses".toList, "xes".toList, "zes".toList]

/-- `text` with a capital first letter if `model` begins with a capital. -/
def capitalizedLike (model text : List Char) : List Char :=
  match model, text with
  | m :: _, c :: rest => if m.isUpper then c.toUpper :: rest else text
  | _, _ => text

def dropEnd (count : Nat) (name : List Char) : List Char :=
  name.take (name.length - count)

def endsIn (suffix name : List Char) : Bool :=
  suffix.isSuffixOf (name.map Char.toLower)

def singularChars (name : List Char) : List Char :=
  match irregularPlurals.find? fun pair => endsIn pair.1 name with
  | some (plural, single) =>
      let stem := dropEnd plural.length name
      stem ++ capitalizedLike (name.drop stem.length) single
  | none =>
      if endsIn "ies".toList name && 3 < name.length then dropEnd 3 name ++ ['y']
      else if sibilantEndings.any (endsIn · name) then dropEnd 2 name
      else if endsIn "ss".toList name || endsIn "us".toList name then name
      else if endsIn ['s'] name && 1 < name.length then dropEnd 1 name
      else name

/-- The tag of one item of a collection tagged `name`. -/
def singular (name : String) : String :=
  String.ofList (singularChars name.toList)

example : singular "dependencies" = "dependency" ∧ singular "developerPeople" = "developerPerson" := by
  decide +kernel

end Trellis.Schema
