import Trellis.Number.Decimal

/-!
Two's complement integers of 8, 16, 32 and 64 bits, as numbers in the range of their width.

Reading never wraps and never cuts: a text whose number lies outside the range is refused.
-/

namespace Trellis.Number

inductive Width where
  | byte
  | short
  | int
  | long
  deriving DecidableEq, Repr

def Width.bits : Width → Nat
  | .byte => 8
  | .short => 16
  | .int => 32
  | .long => 64

def Width.least (width : Width) : Int :=
  -Int.pow 2 (width.bits - 1)

def Width.greatest (width : Width) : Int :=
  Int.pow 2 (width.bits - 1) - 1

/-- A number together with the width whose range it lies in. -/
structure FixedInt where
  width : Width
  value : Int
  least_le : width.least ≤ value
  le_greatest : value ≤ width.greatest
  deriving DecidableEq, Repr

def FixedInt.ofInt? (width : Width) (value : Int) : Option FixedInt :=
  if h : width.least ≤ value ∧ value ≤ width.greatest then some ⟨width, value, h.1, h.2⟩ else none

def FixedInt.zero (width : Width) : FixedInt :=
  ⟨width, 0, by cases width <;> decide, by cases width <;> decide⟩

def FixedInt.read? (width : Width) (text : String) : Option FixedInt :=
  (readInt? text.toList).bind (FixedInt.ofInt? width)

def FixedInt.text (number : FixedInt) : String :=
  String.ofList (intDigits number.value)

theorem FixedInt.ofInt?_value (number : FixedInt) :
    FixedInt.ofInt? number.width number.value = some number := by
  simp [FixedInt.ofInt?, number.least_le, number.le_greatest]

theorem FixedInt.read?_text (number : FixedInt) :
    FixedInt.read? number.width number.text = some number := by
  simp [FixedInt.read?, FixedInt.text, readInt?_intDigits, FixedInt.ofInt?_value]

/-- Reading succeeds just when the digits denote a number in range, and then gives that number. -/
theorem FixedInt.read?_eq_some_iff {width : Width} {text : String} {number : FixedInt} :
    FixedInt.read? width text = some number ↔
      number.width = width ∧ readInt? text.toList = some number.value := by
  unfold FixedInt.read?
  constructor
  · intro h
    obtain ⟨value, read, inRange⟩ := Option.bind_eq_some_iff.1 h
    unfold FixedInt.ofInt? at inRange
    split at inRange
    · cases inRange
      exact ⟨rfl, read⟩
    · simp at inRange
  · rintro ⟨rfl, read⟩
    simp [read, FixedInt.ofInt?_value]

end Trellis.Number
