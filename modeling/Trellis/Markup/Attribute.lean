import Trellis.Markup.Error
import Trellis.Text.Utf8

/-!
The attributes of a tag: names and quoted values with an equals sign between them, and white space
wherever it does no harm.

The reader goes over the tag once, character by character, and stops at the first mistake; the
attributes before the mistake stand.
-/

namespace Trellis.Markup

def isTagBlank (c : Char) : Bool :=
  c = ' ' || c = '\t' || c = '\n' || c = '\r'

/-- An attribute as it is written: its value has its references still in it. -/
structure RawAttribute where
  name : String
  value : List Char
  start : Nat
  deriving DecidableEq, Repr

/-- What the reader of attributes is in the middle of.  Characters taken are last first. -/
inductive AttributePhase where
  | between
  | name (start : Nat) (taken : List Char)
  | afterName (start : Nat) (taken : List Char)
  | beforeValue (start : Nat) (name : String)
  | value (start : Nat) (name : String) (quote : Char) (taken : List Char)
  | failed (error : AttributeError)
  deriving DecidableEq, Repr

structure AttributeReader where
  phase : AttributePhase
  offset : Nat
  done : List RawAttribute
  deriving DecidableEq, Repr

/-- What follows the equals sign after a name.  If names must not repeat, an earlier attribute of
the name is a mistake here. -/
def AttributeReader.afterEquals (reader : AttributeReader) (distinct : Bool) (start : Nat)
    (taken : List Char) : AttributePhase :=
  let name := String.ofList taken.reverse
  match if distinct then reader.done.find? (·.name == name) else none with
  | some earlier => .failed (.repeated start earlier.start)
  | none => .beforeValue start name

def AttributeReader.step (distinct : Bool) (reader : AttributeReader) (c : Char) : AttributeReader :=
  let next := { reader with offset := reader.offset + c.utf8Size }
  match reader.phase with
  | .failed _ => reader
  | .between =>
      if isTagBlank c then next else { next with phase := .name reader.offset [c] }
  | .name start taken =>
      if c = '=' then { next with phase := reader.afterEquals distinct start taken }
      else if isTagBlank c then { next with phase := .afterName start taken }
      else { next with phase := .name start (c :: taken) }
  | .afterName start taken =>
      if isTagBlank c then next
      else if c = '=' then { next with phase := reader.afterEquals distinct start taken }
      else { next with phase := .failed (.expectedEquals reader.offset) }
  | .beforeValue start name =>
      if isTagBlank c then next
      else if c = '"' || c = '\'' then { next with phase := .value start name c [] }
      else { next with phase := .failed (.unquotedValue reader.offset) }
  | .value start name quote taken =>
      if c = quote then
        { next with phase := .between, done := ⟨name, taken.reverse, start⟩ :: reader.done }
      else { next with phase := .value start name quote (c :: taken) }

/-- The mistake made, or the one that lies in ending where the reader stands. -/
def AttributeReader.mistake? (reader : AttributeReader) : Option AttributeError :=
  match reader.phase with
  | .between => none
  | .name _ _ | .afterName _ _ => some (.expectedEquals reader.offset)
  | .beforeValue _ _ => some (.expectedValue reader.offset)
  | .value _ _ quote _ => some (.unclosedQuote reader.offset quote)
  | .failed error => some error

/-- The attributes in a part of a tag that begins at the byte `offset`, and the mistake that ended
them. -/
def readAttributes (distinct : Bool) (offset : Nat) (text : List Char) :
    List RawAttribute × Option AttributeError :=
  let reader := text.foldl (AttributeReader.step distinct) ⟨.between, offset, []⟩
  (reader.done.reverse, reader.mistake?)

example : readAttributes true 1 " k='v'".toList = ([⟨"k", ['v'], 2⟩], none) := by decide +kernel
example : (readAttributes true 1 " b c='d'".toList).2 = some (.expectedEquals 4) := by decide +kernel

end Trellis.Markup
