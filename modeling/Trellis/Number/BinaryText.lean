import Trellis.Number.Binary
import Trellis.Number.Decimal

/-!
Binary floating point numbers as decimal text.

Reading takes an optional sign, then digits with at most one point among them and an optional power
of ten, or one of the words for the values that are not finite; it rounds to the nearest number.
Writing gives the fewest decimal digits that read back as the number, the nearest to it of those, in
positional notation without an exponent.
-/

namespace Trellis.Number

/-! ### Reading -/

/-- Beyond this power of ten every number is infinite, and below its inverse every number is zero,
in both precisions. -/
def farExponent : Int := 400

def Precision.ofDecimal (precision : Precision) (negative : Bool) (digits : Nat) (power : Int) :
    Binary :=
  let magnitude := power + (natDigits digits).length
  if digits = 0 || magnitude < -farExponent then .finite negative 0 precision.leastExponent
  else if farExponent < magnitude then .infinite negative
  else if 0 ≤ power then precision.round negative (digits * Nat.pow 10 power.toNat) 1
  else precision.round negative digits (Nat.pow 10 (-power).toNat)

def digitsValue (digits : List Char) : Nat :=
  Nat.ofDigitChars 10 digits 0

def readPower? : List Char → Option Int
  | [] => some 0
  | c :: rest => if c = 'e' || c = 'E' then readInt? rest else none

def Precision.readUnsigned? (precision : Precision) (negative : Bool) (text : List Char) :
    Option Binary :=
  let whole := text.takeWhile Char.isDigit
  let rest := text.dropWhile Char.isDigit
  let (fraction, rest) :=
    match rest with
    | '.' :: rest => (rest.takeWhile Char.isDigit, rest.dropWhile Char.isDigit)
    | rest => ([], rest)
  if whole.isEmpty && fraction.isEmpty then
    let word := text.map Char.toLower
    if word = "inf".toList || word = "infinity".toList then some (.infinite negative)
    else if word = "nan".toList then some .nan
    else none
  else
    (readPower? rest).map fun power =>
      precision.ofDecimal negative (digitsValue (whole ++ fraction)) (power - fraction.length)

def Precision.read? (precision : Precision) (text : String) : Option Binary :=
  match text.toList with
  | '-' :: rest => precision.readUnsigned? true rest
  | '+' :: rest => precision.readUnsigned? false rest
  | rest => precision.readUnsigned? false rest

/-! ### Writing -/

/-- Four times the distance from a significand down to the border of the numbers that round to it:
half a unit, but a quarter of one if the numbers below lie closer. -/
def Precision.marginBelow (precision : Precision) (significand : Nat) : Nat :=
  if significand == Nat.pow 2 (precision.digits - 1) then 1 else 2

structure Decimal where
  count : Nat
  power : Int
  deriving DecidableEq, Repr

/-- Of the two decimals next to a finite number on the grid of one power of ten, the nearer one that
reads back as the number; of two as near, the upper. -/
def Precision.decimalOnGrid? (precision : Precision) (significand : Nat) (exponent power : Int) :
    Option Decimal :=
  let (unit, grid) :=
    if 0 ≤ power then scaled 1 (Nat.pow 10 power.toNat) (exponent - 2)
    else scaled (Nat.pow 10 (-power).toNat) 1 (exponent - 2)
  let value := 4 * significand * unit
  let least := (4 * significand - precision.marginBelow significand) * unit
  let greatest := (4 * significand + 2) * unit
  let inside (point : Nat) : Bool :=
    if significand % 2 == 0 then least ≤ point && point ≤ greatest
    else least < point && point < greatest
  let below := value / grid
  let belowFits := inside (below * grid)
  let aboveFits := inside ((below + 1) * grid)
  if belowFits && (!aboveFits || 2 * (value - below * grid) < grid) then some ⟨below, power⟩
  else if aboveFits then some ⟨below + 1, power⟩
  else none

def Precision.shortestFrom (precision : Precision) (significand : Nat) (exponent : Int) :
    (steps : Nat) → (power : Int) → Decimal
  | 0, power => ⟨0, power⟩
  | steps + 1, power =>
      match precision.decimalOnGrid? significand exponent power with
      | some decimal => decimal
      | none => precision.shortestFrom significand exponent steps (power - 1)

/-- The decimal of the coarsest grid that reads back as a finite number other than zero.  The search
starts above the number and ends at the grid that the number itself lies on. -/
def Precision.shortest (precision : Precision) (significand : Nat) (exponent : Int) : Decimal :=
  let (n, d) := scaled significand 1 exponent
  let start := (natDigits (n / d)).length
  precision.shortestFrom significand exponent (start + (-exponent).toNat + 1) start

/-- Digits and a power of ten in positional notation.  Zeros at the end of the digits count as part
of the power. -/
def positional (decimal : Decimal) : List Char :=
  let digits := natDigits decimal.count
  let zeros := (digits.reverse.takeWhile (· = '0')).length
  let digits := digits.take (digits.length - zeros)
  let power := decimal.power + zeros
  if 0 ≤ power then digits ++ List.replicate power.toNat '0'
  else
    let point := digits.length + power
    if 0 < point then digits.take point.toNat ++ '.' :: digits.drop point.toNat
    else '0' :: '.' :: List.replicate (-point).toNat '0' ++ digits

def Precision.text (precision : Precision) : Binary → String
  | .nan => "NaN"
  | .infinite negative => if negative then "-inf" else "inf"
  | .finite negative significand exponent =>
      let magnitude :=
        if significand = 0 then ['0'] else positional (precision.shortest significand exponent)
      String.ofList (if negative then '-' :: magnitude else magnitude)

example : (Precision.double.read? "0.1").map Precision.double.text = some "0.1" := by decide +kernel
example : (Precision.single.read? "-1e10").map Precision.single.text = some "-10000000000" := by
  decide +kernel

end Trellis.Number
