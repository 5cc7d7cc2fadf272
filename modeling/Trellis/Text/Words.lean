import Trellis.Text.LetterCase
import Trellis.Text.WordCharacter

/-!
The words of an identifier, and the four ways to spell them as one name again.

A character that is neither letter nor digit separates words and is dropped.  Inside an unbroken
stretch a word ends before a capital that follows a small letter, and before the last capital of a
run of capitals when a small letter follows it: `groupId` is `group`, `Id`, and `XMLReader` is
`XML`, `Reader`.
-/

namespace Trellis.Text

/-- The case of the last cased letter of the word being read. -/
inductive Casing where
  | uncased
  | lower
  | upper
  deriving DecidableEq, Repr

/-- A character without case leaves the casing as it is. -/
def Casing.after (casing : Casing) (c : Char) : Casing :=
  if isLowercase c then .lower else if isUppercase c then .upper else casing

/-- The stretches between separators.  `taken` holds the current stretch, last character first. -/
def stretches (taken : List Char) : List Char → List (List Char)
  | [] => [taken.reverse]
  | c :: rest =>
      if isWordCharacter c then stretches (c :: taken) rest
      else taken.reverse :: stretches [] rest

/-- The words of one stretch.  `taken` holds the current word, last character first. -/
def wordsOfStretch : Casing → List Char → List Char → List (List Char)
  | _, taken, [] => if taken.isEmpty then [] else [taken.reverse]
  | _, taken, [c] => [(c :: taken).reverse]
  | casing, taken, c :: next :: rest =>
      if casing.after c = .lower && isUppercase next then
        (c :: taken).reverse :: wordsOfStretch .uncased [] (next :: rest)
      else if casing = .upper && isUppercase c && isLowercase next then
        taken.reverse :: wordsOfStretch .uncased [c] (next :: rest)
      else
        wordsOfStretch (casing.after c) (c :: taken) (next :: rest)

def words (name : String) : List (List Char) :=
  (stretches [] name.toList).flatMap (wordsOfStretch .uncased [])

/-- A word in small letters; a capital sigma at its end becomes the final small sigma. -/
def lowercaseWord : List Char → List Char
  | [] => []
  | c :: rest =>
      if c = 'Σ' && rest.isEmpty then ['ς'] else toLowercase c ++ lowercaseWord rest

def capitalizedWord : List Char → List Char
  | [] => []
  | c :: rest => toUppercase c ++ lowercaseWord rest

def separatedName (separator : Char) (name : String) : String :=
  String.ofList (((words name).map lowercaseWord).intersperse [separator]).flatten

def pascalName (name : String) : String :=
  String.ofList ((words name).flatMap capitalizedWord)

def camelName (name : String) : String :=
  match words name with
  | [] => ""
  | first :: rest => String.ofList (lowercaseWord first ++ rest.flatMap capitalizedWord)

example : words "XMLReader v2" = ["XML".toList, "Reader".toList, "v2".toList] := by decide +kernel
example : separatedName '-' "groupId" = "group-id" := by decide +kernel

end Trellis.Text
