import Trellis.Number.FixedInt
import Trellis.Proofs.Markup.Spellings

/-!
Integers that texts stand for.

A text is an integer if it has one or more decimal digits, perhaps behind a sign.  There may be any
number of digits, with zeros in front.  Reading at a width gives the integer that the text is, if it
lies in the range of the width.
-/

namespace Trellis.Number

open Markup (IsDigit IsNumeral)

/-- The text is the integer in decimal digits, with or without a sign. -/
inductive IsInteger : List Char → Int → Prop
  | unsigned {digits : List Char} {number : Nat} (filled : digits ≠ [])
      (numeral : IsNumeral 10 digits number) : IsInteger digits number
  | plus {digits : List Char} {number : Nat} (filled : digits ≠ [])
      (numeral : IsNumeral 10 digits number) : IsInteger ('+' :: digits) number
  | minus {digits : List Char} {number : Nat} (filled : digits ≠ [])
      (numeral : IsNumeral 10 digits number) : IsInteger ('-' :: digits) (-number)

def Width.Spans (width : Width) (number : Int) : Prop :=
  -Int.pow 2 (width.bits - 1) ≤ number ∧ number < Int.pow 2 (width.bits - 1)

instance (width : Width) (number : Int) : Decidable (width.Spans number) :=
  inferInstanceAs (Decidable (_ ∧ _))

/-! ### Digits -/

private theorem isDigit_ten_iff {c : Char} {digit : Nat} :
    IsDigit 10 c digit ↔ c.isDigit = true ∧ c.toNat - '0'.toNat = digit := by
  constructor
  · intro isDigit
    have all : ∀ digit < 10, [digit.digitChar, digit.digitChar.toUpper].all fun c =>
        c.isDigit = true ∧ c.toNat - '0'.toNat = digit := by
      decide
    refine of_decide_eq_true (List.all_eq_true.1 (all digit isDigit.lt) c ?_)
    rw [List.mem_cons, List.mem_singleton]
    exact isDigit.2
  · rintro ⟨isDigit, rfl⟩
    simp only [Char.isDigit, Bool.and_eq_true, decide_eq_true_eq] at isDigit
    have least : 48 ≤ c.toNat := isDigit.1
    have greatest : c.toNat ≤ 57 := isDigit.2
    have zero : '0'.toNat = 48 := rfl
    have small : c.toNat - '0'.toNat < 10 := by omega
    refine ⟨small, .inl (Char.toNat_inj.1 ?_)⟩
    rw [Nat.toNat_digitChar_of_lt_ten small]
    omega

private theorem forall₂_isDigit_iff {digits : List Char} {values : List Nat} :
    List.Forall₂ (IsDigit 10) digits values ↔
      (∀ c ∈ digits, c.isDigit = true) ∧ digits.map (fun c => c.toNat - '0'.toNat) = values := by
  induction digits generalizing values with
  | nil =>
      rw [List.forall₂_nil_left_iff, List.map_nil]
      exact ⟨fun same => ⟨nofun, same.symm⟩, fun ⟨_, same⟩ => same.symm⟩
  | cons c rest ih =>
      cases values with
      | nil => simp
      | cons value values =>
          rw [List.forall₂_cons, isDigit_ten_iff, ih, List.forall_mem_cons, List.map_cons,
            List.cons.injEq]
          constructor
          · rintro ⟨⟨first, valueEq⟩, later, valuesEq⟩
            exact ⟨⟨first, later⟩, valueEq, valuesEq⟩
          · rintro ⟨⟨first, later⟩, valueEq, valuesEq⟩
            exact ⟨⟨first, valueEq⟩, later, valuesEq⟩

private theorem ofDigitChars_eq_ofDigits (digits : List Char) :
    Nat.ofDigitChars 10 digits 0 =
      Nat.ofDigits 10 (digits.map fun c => c.toNat - '0'.toNat).reverse := by
  rw [← Markup.foldl_eq_ofDigits, List.foldl_map, Nat.ofDigitChars]
  congr 1
  funext number c
  rw [Nat.mul_comm]

private theorem isNumeral_ten_iff {digits : List Char} {number : Nat} :
    IsNumeral 10 digits number ↔
      (∀ c ∈ digits, c.isDigit = true) ∧ Nat.ofDigitChars 10 digits 0 = number := by
  rw [ofDigitChars_eq_ofDigits]
  constructor
  · rintro ⟨values, areDigits, valueEq⟩
    obtain ⟨all, rfl⟩ := forall₂_isDigit_iff.1 areDigits
    exact ⟨all, valueEq⟩
  · rintro ⟨all, valueEq⟩
    exact ⟨_, forall₂_isDigit_iff.2 ⟨all, rfl⟩, valueEq⟩

theorem isNumeral_of_all {digits : List Char} (areDigits : digits.all Char.isDigit = true) :
    IsNumeral 10 digits (Nat.ofDigitChars 10 digits 0) :=
  isNumeral_ten_iff.2 ⟨List.all_eq_true.1 areDigits, rfl⟩

/-! ### Reading -/

private theorem readNat?_eq_some_iff {digits : List Char} {number : Nat} :
    readNat? digits = some number ↔ digits ≠ [] ∧ IsNumeral 10 digits number := by
  rw [isNumeral_ten_iff, readNat?, Option.ite_none_right_eq_some, Bool.and_eq_true, Bool.not_eq_true',
    List.isEmpty_eq_false_iff, List.all_eq_true, Option.some.injEq, and_assoc]

/-- A text is read as the integer that it is, and any other text is refused. -/
private theorem readInt?_eq_some_iff {text : List Char} {number : Int} :
    readInt? text = some number ↔ IsInteger text number := by
  constructor
  · intro read
    unfold readInt? at read
    split at read <;>
      obtain ⟨magnitude, digitsRead, rfl⟩ := Option.map_eq_some_iff.1 read <;>
      obtain ⟨filled, numeral⟩ := readNat?_eq_some_iff.1 digitsRead
    · exact .plus filled numeral
    · exact .minus filled numeral
    · exact .unsigned filled numeral
  · intro isInteger
    cases isInteger with
    | unsigned filled numeral =>
        rw [readInt?_eq_of_isDigit (isNumeral_ten_iff.1 numeral).1,
          readNat?_eq_some_iff.2 ⟨filled, numeral⟩]
        rfl
    | plus filled numeral =>
        rw [readInt?, readNat?_eq_some_iff.2 ⟨filled, numeral⟩]
        rfl
    | minus filled numeral =>
        rw [readInt?, readNat?_eq_some_iff.2 ⟨filled, numeral⟩]
        rfl

theorem IsInteger.unique {text : List Char} {number number' : Int} (isInteger : IsInteger text number)
    (isInteger' : IsInteger text number') : number = number' :=
  Option.some.inj ((readInt?_eq_some_iff.2 isInteger).symm.trans (readInt?_eq_some_iff.2 isInteger'))

theorem Width.spans_iff {width : Width} {number : Int} :
    width.Spans number ↔ width.least ≤ number ∧ number ≤ width.greatest := by
  rw [Width.Spans, Width.least, Width.greatest, Int.le_sub_one_iff]

theorem FixedInt.exists_of_spans {width : Width} {number : Int} (spans : width.Spans number) :
    ∃ fixed : FixedInt, fixed.width = width ∧ fixed.value = number :=
  ⟨⟨width, number, (Width.spans_iff.1 spans).1, (Width.spans_iff.1 spans).2⟩, rfl, rfl⟩

theorem FixedInt.spans (number : FixedInt) : number.width.Spans number.value :=
  Width.spans_iff.2 ⟨number.least_le, number.le_greatest⟩

theorem FixedInt.read?_eq_some_iff_isInteger {width : Width} {text : String} {number : FixedInt} :
    FixedInt.read? width text = some number ↔
      number.width = width ∧ IsInteger text.toList number.value := by
  rw [FixedInt.read?_eq_some_iff, readInt?_eq_some_iff]

theorem FixedInt.read?_eq_none_iff {width : Width} {text : String} :
    FixedInt.read? width text = none ↔
      ∀ number, IsInteger text.toList number → ¬ width.Spans number := by
  rw [Option.eq_none_iff_forall_ne_some]
  constructor
  · intro unread number isInteger spans
    obtain ⟨fixed, widthEq, rfl⟩ := FixedInt.exists_of_spans spans
    exact unread fixed (FixedInt.read?_eq_some_iff_isInteger.2 ⟨widthEq, isInteger⟩)
  · intro outside fixed read
    obtain ⟨rfl, isInteger⟩ := FixedInt.read?_eq_some_iff_isInteger.1 read
    exact outside fixed.value isInteger fixed.spans

end Trellis.Number
