/-!
Integers in decimal digits: an optional sign, then one or more of the ten ASCII digits and nothing
else.

Reading undoes writing, also for digits with zeros or a plus sign in front.
-/

namespace Trellis.Number

def readNat? (digits : List Char) : Option Nat :=
  if !digits.isEmpty && digits.all Char.isDigit then some (Nat.ofDigitChars 10 digits 0) else none

def readInt? : List Char → Option Int
  | '+' :: digits => (readNat? digits).map Int.ofNat
  | '-' :: digits => (readNat? digits).map fun (n : Nat) => -(n : Int)
  | digits => (readNat? digits).map Int.ofNat

def natDigits (n : Nat) : List Char :=
  Nat.toDigits 10 n

def intDigits (n : Int) : List Char :=
  if n < 0 then '-' :: natDigits n.natAbs else natDigits n.natAbs

/-- The digits of the number with zeros in front, at least `width` of them. -/
def paddedDigits (width n : Nat) : List Char :=
  let digits := natDigits n
  List.replicate (width - digits.length) '0' ++ digits

theorem isDigit_of_mem_natDigits {n : Nat} {c : Char} (h : c ∈ natDigits n) : c.isDigit = true :=
  Nat.isDigit_of_mem_toDigits (by decide) (by decide) h

private theorem readNat?_natDigits (n : Nat) : readNat? (natDigits n) = some n := by
  have filled : (natDigits n).isEmpty = false := by
    simp [natDigits]
  have digits : (natDigits n).all Char.isDigit = true :=
    List.all_eq_true.2 fun _ h => isDigit_of_mem_natDigits h
  rw [readNat?, filled, digits]
  simp [natDigits, Nat.ofDigitChars_ten_toDigits]

theorem readInt?_eq_of_isDigit {digits : List Char} (h : ∀ c ∈ digits, c.isDigit = true) :
    readInt? digits = (readNat? digits).map Int.ofNat := by
  unfold readInt?
  split
  · exact absurd (h '+' (by simp)) (by decide)
  · exact absurd (h '-' (by simp)) (by decide)
  · rfl

theorem readInt?_intDigits (n : Int) : readInt? (intDigits n) = some n := by
  unfold intDigits
  by_cases negative : n < 0
  · rw [if_pos negative]
    change (readNat? (natDigits n.natAbs)).map (fun (m : Nat) => -(m : Int)) = some n
    rw [readNat?_natDigits, Option.map_some, Option.some.injEq]
    omega
  · rw [if_neg negative, readInt?_eq_of_isDigit fun _ h => isDigit_of_mem_natDigits h, readNat?_natDigits]
    simp only [Option.map_some, Int.ofNat_eq_natCast, Option.some.injEq]
    omega

end Trellis.Number
