import Trellis.Proofs.Number.Integers
import Trellis.Proofs.Walk.Trees
import Trellis.Reading.Coercion

/-!
What texts are read as.

An integer field takes the texts that are integers in the range of its width, and each of them as the
integer that it is.  Any other text is refused by a strict read and is zero in a lenient one.
-/

namespace Trellis.Reading

open Number (FixedInt IsInteger Width)
open Schema (Field ScalarType)
open Text (isBlank)

/-- The text of a field from what is given for it.  If the field trims, the blanks at the ends do not
belong to it. -/
inductive IsFieldText (field : Field) (raw : String) : String → Prop
  | whole (keeps : field.trims = false) : IsFieldText field raw raw
  | trimmed {before text after : String} (trims : field.trims = true)
      (rawEq : raw = before ++ text ++ after) (blankBefore : ∀ c ∈ before.toList, isBlank c = true)
      (blankAfter : ∀ c ∈ after.toList, isBlank c = true)
      (first : ∀ c, text.toList.head? = some c → isBlank c = false)
      (last : ∀ c, text.toList.getLast? = some c → isBlank c = false) : IsFieldText field raw text

/-! ### Texts of fields -/

private theorem ends_trim (raw : String) :
    (∀ c, (Text.trim raw).toList.head? = some c → isBlank c = false) ∧
      ∀ c, (Text.trim raw).toList.getLast? = some c → isBlank c = false := by
  by_cases empty : Text.trim raw = ""
  · rw [empty]
    exact ⟨nofun, nofun⟩
  · exact ⟨(isSolid_trim empty).first, (isSolid_trim empty).last⟩

theorem isFieldText_iff {field : Field} {raw text : String} :
    IsFieldText field raw text ↔ fieldText field raw = text := by
  unfold fieldText
  constructor
  · intro isText
    cases isText with
    | whole keeps => rw [keeps, if_neg Bool.false_ne_true]
    | trimmed trims rawEq blankBefore blankAfter first last =>
        rw [if_pos trims, rawEq, Text.trim, String.toList_append, String.toList_append,
          trimChars_of_solid blankBefore blankAfter first last, String.ofList_toList]
  · rintro rfl
    split
    · rename_i trims
      obtain ⟨before, after, split, blankBefore, blankAfter⟩ := trimChars_split raw.toList
      obtain ⟨first, last⟩ := ends_trim raw
      refine @IsFieldText.trimmed field raw (String.ofList before) _ (String.ofList after) trims ?_ ?_ ?_
        first last
      · rw [Text.trim, ← String.ofList_append, ← String.ofList_append, ← split, String.ofList_toList]
      · rw [String.toList_ofList]
        exact blankBefore
      · rw [String.toList_ofList]
        exact blankAfter
    · rename_i keeps
      exact .whole (Bool.not_eq_true _ ▸ keeps)

/-! ### Integers -/

section Integers

variable {field : Field} {width : Width} {raw text : String} {location : Location}

private theorem coerce_integer_of_spans (isText : IsFieldText field raw text) {number : FixedInt}
    (widthEq : number.width = width) (isInteger : IsInteger text.toList number.value) (strict : Bool) :
    coerce strict field (.integer width) raw location = .ok (.integer number) := by
  have read : FixedInt.read? width text = some number :=
    FixedInt.read?_eq_some_iff_isInteger.2 ⟨widthEq, isInteger⟩
  simp only [coerce, isFieldText_iff.1 isText, scalarOf?, read, Option.map_some, Option.some_or]

private theorem coerce_integer_of_outside (isText : IsFieldText field raw text)
    (outside : ∀ number, IsInteger text.toList number → ¬ width.Spans number) :
    coerce true field (.integer width) raw location =
        .error (.coercion field.name (.integer width) text location) ∧
      coerce false field (.integer width) raw location = .ok (.integer (.zero width)) := by
  have unread : FixedInt.read? width text = none := FixedInt.read?_eq_none_iff.2 outside
  constructor <;>
    simp only [coerce, isFieldText_iff.1 isText, scalarOf?, unread, Option.map_none, Option.none_or] <;>
    rfl

end Integers

/-- An integer field takes the integers in the range of its width and no other text.  Zero stands in
for the others in a lenient read. -/
theorem coerce_integer_exact (field : Field) (width : Width) (raw : String) (location : Location) :
    ∃ text, IsFieldText field raw text ∧
      ((∃ value, coerce true field (.integer width) raw location = .ok value) ↔
        ∃ number, IsInteger text.toList number ∧ width.Spans number) ∧
      (∀ number, IsInteger text.toList number → width.Spans number →
        ∃ fixed : FixedInt, fixed.width = width ∧ fixed.value = number ∧
          ∀ strict, coerce strict field (.integer width) raw location = .ok (.integer fixed)) ∧
      ((∀ number, IsInteger text.toList number → ¬ width.Spans number) →
        (∃ error, coerce true field (.integer width) raw location = .error error ∧
          error = .coercion field.name (.integer width) text location ∧
          error.message = "Unable to parse element '" ++ field.name ++ "', must be " ++
            (ScalarType.integer width).description ++ " (got '" ++ text ++ "') at " ++
              location.describe) ∧
        ∃ zero : FixedInt, zero.width = width ∧ zero.value = 0 ∧
          coerce false field (.integer width) raw location = .ok (.integer zero)) := by
  have isText : IsFieldText field raw (fieldText field raw) := isFieldText_iff.2 rfl
  have accepted (number : Int) (isInteger : IsInteger (fieldText field raw).toList number)
      (spans : width.Spans number) :
      ∃ fixed : FixedInt, fixed.width = width ∧ fixed.value = number ∧
        ∀ strict, coerce strict field (.integer width) raw location = .ok (.integer fixed) := by
    obtain ⟨fixed, widthEq, rfl⟩ := FixedInt.exists_of_spans spans
    exact ⟨fixed, widthEq, rfl, coerce_integer_of_spans isText widthEq isInteger⟩
  refine ⟨fieldText field raw, isText, ?_, accepted, ?_⟩
  · constructor
    · rintro ⟨value, read⟩
      by_contra none
      have outside (number : Int) (isInteger : IsInteger (fieldText field raw).toList number) :
          ¬ width.Spans number :=
        fun spans => none ⟨number, isInteger, spans⟩
      rw [(coerce_integer_of_outside isText outside).1] at read
      cases read
    · rintro ⟨number, isInteger, spans⟩
      obtain ⟨fixed, _, _, reads⟩ := accepted number isInteger spans
      exact ⟨_, reads true⟩
  · intro outside
    obtain ⟨refused, zero⟩ := @coerce_integer_of_outside field width raw _ location isText outside
    exact ⟨⟨_, refused, rfl, rfl⟩, _, rfl, rfl, zero⟩

/-- The least byte with blanks around it and a zero in front is read as what it is; one less is
refused, or taken for zero. -/
theorem coerce_integer_exact_of_least_byte :
    let load : Field := { name := "load", kind := .scalar (.integer .byte) }
    let place : Location := ⟨⟨1, 1⟩, none⟩
    (∃ fixed : FixedInt, fixed.width = .byte ∧ fixed.value = -128 ∧
      ∀ strict, coerce strict load (.integer .byte) " -0128 " place = .ok (.integer fixed)) ∧
    (∃ error, coerce true load (.integer .byte) "-129" place = .error error ∧
      error.message = "Unable to parse element 'load', must be a byte (got '-129') at " ++
        place.describe) ∧
    ∃ zero : FixedInt, zero.value = 0 ∧
      coerce false load (.integer .byte) "-129" place = .ok (.integer zero) := by
  intro load place
  constructor
  · obtain ⟨text, isText, _, accepted, _⟩ := coerce_integer_exact load .byte " -0128 " place
    have textEq : "-0128" = text := (by decide : "-0128" = fieldText load " -0128 ").trans
      (isFieldText_iff.1 isText)
    subst textEq
    have isInteger : IsInteger "-0128".toList (-128) :=
      .minus (by decide) (@Number.isNumeral_of_all ['0', '1', '2', '8'] (by decide))
    exact accepted (-128) isInteger (by decide)
  · obtain ⟨text, isText, _, _, refused⟩ := coerce_integer_exact load .byte "-129" place
    have textEq : "-129" = text := (by decide : "-129" = fieldText load "-129").trans
      (isFieldText_iff.1 isText)
    subst textEq
    have isInteger : IsInteger "-129".toList (-129) :=
      .minus (by decide) (@Number.isNumeral_of_all ['1', '2', '9'] (by decide))
    obtain ⟨⟨error, fails, _, message⟩, zero, _, zeroEq, lenient⟩ := refused fun number other => by
      rw [other.unique isInteger]
      decide
    exact ⟨⟨error, fails, message⟩, zero, zeroEq, lenient⟩

end Trellis.Reading
