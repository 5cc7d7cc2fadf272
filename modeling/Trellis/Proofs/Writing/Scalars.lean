import Trellis.Proofs.Writing.Writer

/-!
Scalars that are written and read again.

A truth value, a character, an integer or a text is read from the text it is written as, provided
that trimming takes nothing away.
-/

namespace Trellis.Reading

open Trellis.Graph (Value)
open Number (FixedInt)
open Schema (Field ScalarType)

/-! ### Trimming -/

private theorem trimStart_eq_self {text : List Char} (plain : ∀ c ∈ text, Text.isBlank c = false) :
    Text.trimStart text = text := by
  unfold Text.trimStart
  cases text with
  | nil => rfl
  | cons c rest => rw [List.dropWhile_cons, plain c List.mem_cons_self, if_neg Bool.false_ne_true]

private theorem trim_eq_self {text : String} (plain : ∀ c ∈ text.toList, Text.isBlank c = false) :
    Text.trim text = text := by
  have plainReverse : ∀ c ∈ text.toList.reverse, Text.isBlank c = false := by
    intro c member
    exact plain c (List.mem_reverse.1 member)
  rw [Text.trim, Text.trimChars, trimStart_eq_self plain, trimStart_eq_self plainReverse,
    List.reverse_reverse, String.ofList_toList]

private theorem isBlank_of_isDigit {c : Char} (digit : c.isDigit = true) : Text.isBlank c = false := by
  simp only [Char.isDigit, Bool.and_eq_true, decide_eq_true_eq] at digit
  obtain ⟨least, greatest⟩ := digit
  have lower : 48 ≤ c.toNat := least
  have upper : c.toNat ≤ 57 := greatest
  simp only [Text.isBlank, Text.Ranges.has, Text.blankCharacters, List.any_cons, List.any_nil,
    Bool.or_false, Bool.or_eq_false_iff, Bool.and_eq_false_iff, decide_eq_false_iff_not]
  omega

private theorem trim_integer (number : FixedInt) : Text.trim number.text = number.text := by
  apply trim_eq_self
  intro c member
  simp only [FixedInt.text, String.toList_ofList, Number.intDigits] at member
  split at member
  · rcases List.mem_cons.1 member with sign | digit
    · rw [sign]
      decide
    · exact isBlank_of_isDigit (Number.isDigit_of_mem_natDigits digit)
  · exact isBlank_of_isDigit (Number.isDigit_of_mem_natDigits member)

/-! ### Reading what is written -/

private theorem readBoolean_written (default : Option String) (truth : Bool) :
    readBoolean default (if truth then "true" else "false") = truth := by
  cases truth with
  | true =>
      have filled : "true".isEmpty = false := by decide
      simp only [readBoolean, if_true, filled, Bool.false_eq_true, if_false]
      decide
  | false =>
      have filled : "false".isEmpty = false := by decide
      simp only [readBoolean, Bool.false_eq_true, if_false, filled]
      decide

inductive IsExact : ScalarType → Value → Prop
  | boolean (truth : Bool) : IsExact .boolean (.boolean truth)
  | character (c : Char) : IsExact .character (.character c)
  | integer (number : FixedInt) : IsExact (.integer number.width) (.integer number)
  | text (content : String) : IsExact .text (.text content)

theorem isExact_of_hasType {type : ScalarType} (exact : type.isExact = true) {value : Value}
    (typed : value.HasType type) : IsExact type value := by
  cases type <;> cases value <;> first | exact typed.elim | skip
  case boolean.boolean truth => exact .boolean truth
  case character.character c => exact .character c
  case integer.integer width number =>
    cases typed
    exact .integer number
  case text.text content => exact .text content
  all_goals cases exact

private theorem scalarOf?_written (field : Field) {type : ScalarType} {value : Value}
    (exact : IsExact type value) :
    ∃ text, value.writtenText? = some text ∧ scalarOf? field type text = some value ∧
      (value.IsTrim → Text.trim text = text) := by
  cases exact with
  | boolean truth =>
      refine ⟨if truth then "true" else "false", rfl, ?_, ?_⟩
      · rw [scalarOf?, readBoolean_written]
      · intro _
        cases truth <;> decide
  | character c =>
      refine ⟨String.singleton c, rfl, ?_, ?_⟩
      · simp [scalarOf?]
      · intro plain
        apply trim_eq_self
        intro d member
        rw [String.toList_singleton] at member
        rw [List.mem_singleton.1 member]
        exact plain
  | integer number =>
      refine ⟨number.text, rfl, ?_, ?_⟩
      · rw [scalarOf?, FixedInt.read?_text]
        rfl
      · intro _
        exact trim_integer number
  | text content => exact ⟨content, rfl, rfl, fun trim => trim⟩

theorem coerce_written {field : Field} {type : ScalarType} (exact : type.isExact = true)
    {value : Value} (typed : value.HasType type) (trimmed : field.trims = true → value.IsTrim) :
    ∃ text, value.writtenText? = some text ∧
      ∀ strict location, coerce strict field type text location = .ok value := by
  obtain ⟨text, written, reads, trim⟩ := scalarOf?_written field (isExact_of_hasType exact typed)
  have kept : fieldText field text = text := by
    unfold fieldText
    split
    · rename_i trims
      exact trim (trimmed trims)
    · rfl
  refine ⟨text, written, ?_⟩
  intro strict location
  simp only [coerce, kept, reads, Option.some_or]

/-- A lenient read makes something of every text. -/
theorem coerce_lenient (field : Field) {type : ScalarType} (exact : type.isExact = true)
    (text : String) (location : Location) :
    ∃ value, coerce false field type text location = .ok value := by
  have some : ∃ value, (scalarOf? field type (fieldText field text)).or (fallback? type) = some value := by
    cases type with
    | boolean => exact ⟨_, rfl⟩
    | character => cases found : scalarOf? field .character (fieldText field text) <;> exact ⟨_, rfl⟩
    | integer width =>
        cases found : scalarOf? field (.integer width) (fieldText field text) <;> exact ⟨_, rfl⟩
    | text => exact ⟨_, rfl⟩
    | floating precision => cases exact
    | date => cases exact
    | tree => cases exact
  obtain ⟨value, found⟩ := some
  refine ⟨value, ?_⟩
  simp only [coerce, Bool.false_eq_true, if_false, found]

theorem equal_self_of_hasType {type : ScalarType} (exact : type.isExact = true) {value : Value}
    (typed : value.HasType type) : value.equal value = true := by
  apply Value.equal_iff.2
  cases isExact_of_hasType exact typed with
  | boolean truth => exact .boolean truth
  | character c => exact .character c
  | integer number => exact .integer number
  | text content => exact .text content

end Trellis.Reading
