/-!
Binary floating point numbers of 32 and 64 bits: a sign, a whole significand and a power of two,
besides the two infinities and the one value that is no number.

A finite number has one representation here.  Its significand uses all the digits of the precision
unless the exponent is the least one, so equal numbers are equal pairs, the two zeros apart.
-/

namespace Trellis.Number

inductive Precision where
  | single
  | double
  deriving DecidableEq, Repr

/-- How many binary digits a significand may have. -/
def Precision.digits : Precision → Nat
  | .single => 24
  | .double => 53

/-- The exponent of the last digit of the smallest numbers. -/
def Precision.leastExponent : Precision → Int
  | .single => -149
  | .double => -1074

def Precision.greatestExponent : Precision → Int
  | .single => 104
  | .double => 971

/-- `finite negative significand exponent` is `significand · 2 ^ exponent`, with the sign. -/
inductive Binary where
  | nan
  | infinite (negative : Bool)
  | finite (negative : Bool) (significand : Nat) (exponent : Int)
  deriving DecidableEq, Repr

def Binary.zero (precision : Precision) : Binary :=
  .finite false 0 precision.leastExponent

/-- Equality of numbers: the zeros are equal, and what is no number equals nothing. -/
def Binary.equal : Binary → Binary → Bool
  | .infinite a, .infinite b => a == b
  | .finite a m e, .finite b n f => (m == 0 && n == 0) || (a == b && m == n && e == f)
  | _, _ => false

/-! ### Rounding -/

def scaled (numerator denominator : Nat) (exponent : Int) : Nat × Nat :=
  if 0 ≤ exponent then (numerator * Nat.pow 2 exponent.toNat, denominator)
  else (numerator, denominator * Nat.pow 2 (-exponent).toNat)

/-- The whole number nearest to a quotient, the even one of two. -/
def nearestEven (numerator denominator : Nat) : Nat :=
  let quotient := numerator / denominator
  let twice := 2 * (numerator % denominator)
  if denominator < twice || (twice == denominator && quotient % 2 == 1) then quotient + 1 else quotient

/-- The exponent at which the whole part of a quotient has the digits of the precision, but no less
than the least one. -/
def Precision.exponentOf (precision : Precision) (numerator denominator : Nat) : Int :=
  let guess : Int := (numerator.log2 : Int) - denominator.log2 - precision.digits
  let (n, d) := scaled numerator denominator (-guess)
  max precision.leastExponent (if n / d < Nat.pow 2 precision.digits then guess else guess + 1)

/-- The number of the precision nearest to a quotient, with an even significand of two; infinite
beyond the greatest. -/
def Precision.round (precision : Precision) (negative : Bool) (numerator denominator : Nat) : Binary :=
  let exponent := precision.exponentOf numerator denominator
  let (n, d) := scaled numerator denominator (-exponent)
  let significand := nearestEven n d
  let (significand, exponent) :=
    if significand == Nat.pow 2 precision.digits then (Nat.pow 2 (precision.digits - 1), exponent + 1)
    else (significand, exponent)
  if significand == 0 then .finite negative 0 precision.leastExponent
  else if precision.greatestExponent < exponent then .infinite negative
  else .finite negative significand exponent

def Binary.widen : Binary → Binary
  | .finite negative significand exponent =>
      let (n, d) := scaled significand 1 exponent
      Precision.double.round negative n d
  | number => number

/-! ### Laws of equality -/

theorem Binary.equal_comm (a b : Binary) : a.equal b = b.equal a := by
  cases a <;> cases b <;> simp only [Binary.equal]
  · rw [Bool.beq_comm]
  · rw [Bool.beq_comm]
    grind

theorem Binary.equal_trans {a b c : Binary} (h : a.equal b = true) (k : b.equal c = true) :
    a.equal c = true := by
  cases a <;> cases b <;> cases c <;> simp_all [Binary.equal]
  grind

theorem Binary.equal_self {a : Binary} (h : a ≠ .nan) : a.equal a = true := by
  cases a <;> simp_all [Binary.equal]

end Trellis.Number
