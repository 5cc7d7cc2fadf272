import Mathlib
import Trellis.Schema.Naming
import Trellis.Text.Utf8

/-!
Singulars of names.

The first rule whose ending a name has makes it singular: the rule has something else in place of the
ending, and what stands before the ending is kept as it is.  The case of letters plays no part in
finding the rule, so the singular of a name in small letters is the singular of the name, in small
letters.

Endings are found in the name in small letters and cut off from the name itself, at a count of bytes
from its end.  All letters of an ending take one byte, in whatever case, so such a cut never falls
inside a character.
-/

namespace Trellis.Schema

open Text (isUppercase toUppercase utf8Length utf8Length_cons utf8Length_append utf8ByteSize_eq
  utf8ByteSize_ofList length_le_utf8Length)

/-! ### Endings and what stands in their place -/

structure Inflection where
  ending : List Char
  /-- What the singular has in place of the ending as the name has it. -/
  inPlace : List Char → List Char
  /-- Whether the rule leaves alone a name that is nothing but the ending. -/
  needsStem : Bool

namespace Inflection

def irregular (pair : List Char × List Char) : Inflection :=
  ⟨pair.1, fun written => capitalizedLike written pair.2, false⟩

def sibilant (ending : List Char) : Inflection :=
  ⟨ending, dropEnd 2, false⟩

def unchanged (ending : List Char) : Inflection :=
  ⟨ending, id, false⟩

def behindStem (ending replacement : List Char) : Inflection :=
  ⟨ending, fun _ => replacement, true⟩

def recognizes (rule : Inflection) (name : List Char) : Bool :=
  endsIn rule.ending name && (!rule.needsStem || decide (rule.ending.length < name.length))

def apply (rule : Inflection) (name : List Char) : List Char :=
  dropEnd rule.ending.length name ++ rule.inPlace (name.drop (name.length - rule.ending.length))

end Inflection

open Inflection (irregular sibilant unchanged behindStem)

def regularInflections : List Inflection :=
  behindStem "ies".toList ['y'] :: sibilantEndings.map sibilant ++
    [unchanged "ss".toList, unchanged "us".toList, behindStem ['s'] []]

def inflections : List Inflection :=
  irregularPlurals.map irregular ++ regularInflections

def inflection? (name : List Char) : Option Inflection :=
  inflections.find? (·.recognizes name)

def inflected (rules : List Inflection) (name : List Char) : List Char :=
  ((rules.find? (·.recognizes name)).map (·.apply name)).getD name

/-! ### Endings in any letter case -/

variable {name stem written suffix : List Char} {rule : Inflection}

private theorem length_dropEnd (count : Nat) (name : List Char) :
    (dropEnd count name).length = name.length - count := by
  rw [dropEnd, List.length_take, Nat.min_eq_left (Nat.sub_le _ _)]

private theorem dropEnd_append {count : Nat} (stem : List Char) (short : count ≤ written.length) :
    dropEnd count (stem ++ written) = stem ++ dropEnd count written := by
  rw [dropEnd, dropEnd, List.length_append, Nat.add_sub_assoc short, List.take_length_add_append]

private theorem dropEnd_length (name : List Char) : dropEnd name.length name = [] := by
  rw [dropEnd, Nat.sub_self, List.take_zero]

private theorem endsIn_iff :
    endsIn suffix name = true ↔
      ∃ stem written, name = stem ++ written ∧ written.map Char.toLower = suffix := by
  rw [endsIn, List.isSuffixOf_iff_suffix, List.suffix_map_iff]
  constructor
  · rintro ⟨written, ⟨stem, rfl⟩, rfl⟩
    exact ⟨stem, written, rfl, rfl⟩
  · rintro ⟨stem, written, rfl, rfl⟩
    exact ⟨written, List.suffix_append stem written, rfl⟩

private theorem endsIn_lower (suffix name : List Char) :
    endsIn suffix (name.map Char.toLower) = endsIn suffix name := by
  have lowered : Char.toLower ∘ Char.toLower = Char.toLower := funext Char.toLower_toLower_eq_toLower
  rw [endsIn, endsIn, List.map_map, lowered]

namespace Inflection

private theorem recognizes_iff :
    rule.recognizes name = true ↔ ∃ stem written, name = stem ++ written ∧
      written.map Char.toLower = rule.ending ∧ (rule.needsStem = true → stem ≠ []) := by
  rw [recognizes, Bool.and_eq_true, endsIn_iff, Bool.or_eq_true, Bool.not_eq_true', decide_eq_true_eq]
  constructor
  · rintro ⟨⟨stem, written, rfl, endingEq⟩, stemmed⟩
    refine ⟨stem, written, rfl, endingEq, ?_⟩
    rintro needs rfl
    rw [← endingEq, List.length_map, List.nil_append, needs] at stemmed
    simp at stemmed
  · rintro ⟨stem, written, rfl, endingEq, stemmed⟩
    refine ⟨⟨stem, written, rfl, endingEq⟩, ?_⟩
    cases needs : rule.needsStem with
    | false => exact .inl rfl
    | true =>
        have positive : 0 < stem.length := List.length_pos_iff.2 (stemmed needs)
        rw [← endingEq, List.length_map, List.length_append]
        exact .inr (by omega)

private theorem recognizes_lower (rule : Inflection) (name : List Char) :
    rule.recognizes (name.map Char.toLower) = rule.recognizes name := by
  rw [recognizes, recognizes, endsIn_lower, List.length_map]

private theorem apply_append (lengthEq : written.length = rule.ending.length) :
    rule.apply (stem ++ written) = stem ++ rule.inPlace written := by
  rw [apply, ← lengthEq, dropEnd_append stem (Nat.le_refl _), dropEnd_length, List.append_nil,
    List.length_append, Nat.add_sub_cancel, List.drop_left]

/-- In small letters, what stands in place of the ending is the same however the ending is written.
And something is left of every name that the rule recognises. -/
structure Lawful (rule : Inflection) : Prop where
  lower : ∀ written, written.map Char.toLower = rule.ending →
    (rule.inPlace written).map Char.toLower = rule.inPlace rule.ending
  leaves : rule.needsStem = true ∨ rule.inPlace rule.ending ≠ []

private theorem lower_capitalizedLike (written single : List Char) :
    (capitalizedLike written single).map Char.toLower = single.map Char.toLower := by
  unfold capitalizedLike
  split
  · split
    · rw [List.map_cons, List.map_cons, Char.toLower_toUpper_eq_toLower]
    · rfl
  · rfl

private theorem lawful_irregular {pair : List Char × List Char} (member : pair ∈ irregularPlurals) :
    (irregular pair).Lawful := by
  have all : ∀ pair ∈ irregularPlurals,
      pair.2.map Char.toLower = pair.2 ∧ capitalizedLike pair.1 pair.2 = pair.2 ∧ pair.2 ≠ [] := by
    decide
  obtain ⟨small, uncapitalized, filled⟩ := all pair member
  constructor
  · intro written _
    show (capitalizedLike written pair.2).map Char.toLower = capitalizedLike pair.1 pair.2
    rw [lower_capitalizedLike, small, uncapitalized]
  · right
    show capitalizedLike pair.1 pair.2 ≠ []
    rw [uncapitalized]
    exact filled

private theorem lawful_sibilant {ending : List Char} (long : 2 < ending.length) :
    (sibilant ending).Lawful := by
  constructor
  · intro written endingEq
    obtain rfl : written.map Char.toLower = ending := endingEq
    show (dropEnd 2 written).map Char.toLower = dropEnd 2 (written.map Char.toLower)
    rw [dropEnd, dropEnd, List.map_take, List.length_map]
  · right
    show dropEnd 2 ending ≠ []
    rw [← List.length_pos_iff, length_dropEnd]
    omega

private theorem lawful_unchanged {ending : List Char} (filled : ending ≠ []) :
    (unchanged ending).Lawful :=
  ⟨fun _ endingEq => endingEq, .inr filled⟩

private theorem lawful_behindStem {ending replacement : List Char}
    (small : replacement.map Char.toLower = replacement) : (behindStem ending replacement).Lawful :=
  ⟨fun _ _ => small, .inl rfl⟩

private theorem lawful_of_mem (member : rule ∈ inflections) : rule.Lawful := by
  have long : ∀ ending ∈ sibilantEndings, 2 < ending.length := by decide
  simp only [inflections, regularInflections, List.mem_append, List.mem_map, List.mem_cons,
    List.not_mem_nil, or_false] at member
  rcases member with ⟨pair, inTable, rfl⟩ | (rfl | ⟨ending, inTable, rfl⟩) | rfl | rfl | rfl
  · exact lawful_irregular inTable
  · exact lawful_behindStem rfl
  · exact lawful_sibilant (long ending inTable)
  · exact lawful_unchanged (by decide)
  · exact lawful_unchanged (by decide)
  · exact lawful_behindStem rfl

end Inflection

/-! ### The rule of a name -/

private theorem inflected_nil (name : List Char) : inflected [] name = name :=
  rfl

private theorem inflected_cons (rule : Inflection) (rules : List Inflection) (name : List Char) :
    inflected (rule :: rules) name =
      if rule.recognizes name then rule.apply name else inflected rules name := by
  rw [inflected, inflected, List.find?_cons]
  cases rule.recognizes name with
  | false => rfl
  | true => rfl

private theorem inflected_unchanged (ending : List Char) (rules : List Inflection) (name : List Char) :
    inflected (unchanged ending :: rules) name =
      if endsIn ending name then name else inflected rules name := by
  have same : (unchanged ending).apply name = name :=
    List.take_append_drop _ _
  have recognized : (unchanged ending).recognizes name = endsIn ending name := Bool.and_true _
  rw [inflected_cons, same, recognized]

private theorem inflected_behindStem (ending replacement : List Char) (rules : List Inflection)
    (name : List Char) :
    inflected (behindStem ending replacement :: rules) name =
      if endsIn ending name && decide (ending.length < name.length) then
        dropEnd ending.length name ++ replacement
      else inflected rules name := by
  rw [inflected_cons]
  rfl

private theorem inflected_sibilants (endings : List (List Char))
    (long : ∀ ending ∈ endings, 2 < ending.length)
    (rules : List Inflection) (name : List Char) :
    inflected (endings.map sibilant ++ rules) name =
      if endings.any (endsIn · name) then dropEnd 2 name else inflected rules name := by
  induction endings with
  | nil => rfl
  | cons ending rest ih =>
      obtain ⟨here, later⟩ := List.forall_mem_cons.1 long
      have recognized : (sibilant ending).recognizes name = endsIn ending name := Bool.and_true _
      rw [List.map_cons, List.cons_append, inflected_cons, recognized, ih later, List.any_cons]
      by_cases ends : endsIn ending name = true
      · obtain ⟨stem, written, rfl, endingEq⟩ := endsIn_iff.1 ends
        have lengthEq : written.length = ending.length := by rw [← endingEq, List.length_map]
        rw [if_pos ends, ends, Bool.true_or, if_pos rfl, Inflection.apply_append lengthEq,
          dropEnd_append stem (by omega)]
        rfl
      · rw [if_neg ends, Bool.eq_false_of_not_eq_true ends, Bool.false_or]

private theorem find?_irregular (rules : List Inflection) (name : List Char) :
    (irregularPlurals.map irregular ++ rules).find? (·.recognizes name) =
      ((irregularPlurals.find? fun pair => endsIn pair.1 name).map irregular).or
        (rules.find? (·.recognizes name)) := by
  have recognized : (fun rule : Inflection => rule.recognizes name) ∘ irregular =
      fun pair => endsIn pair.1 name :=
    funext fun _ => Bool.and_true _
  rw [List.find?_append, List.find?_map, recognized]

/-- The singular is what the first rule that recognises the name makes of it. -/
private theorem singularChars_eq (name : List Char) :
    singularChars name = inflected inflections name := by
  rw [inflected, inflections, find?_irregular]
  unfold singularChars
  cases irregularPlurals.find? fun pair => endsIn pair.1 name with
  | some pair =>
      show dropEnd pair.1.length name ++
        capitalizedLike (name.drop (dropEnd pair.1.length name).length) pair.2 = _
      rw [length_dropEnd]
      rfl
  | none =>
      have long : ∀ ending ∈ sibilantEndings, 2 < ending.length := by decide
      show _ = inflected regularInflections name
      rw [regularInflections, List.cons_append, inflected_behindStem, inflected_sibilants _ long,
        inflected_unchanged, inflected_unchanged, inflected_behindStem, inflected_nil, List.append_nil]
      simp only [Bool.or_eq_true, ite_or]
      rfl

private theorem singularChars_of_none (missing : inflection? name = none) :
    singularChars name = name := by
  rw [inflection?] at missing
  rw [singularChars_eq, inflected, missing]
  rfl

private theorem singularChars_append (found : inflection? (stem ++ written) = some rule)
    (lengthEq : written.length = rule.ending.length) :
    singularChars (stem ++ written) = stem ++ rule.inPlace written := by
  rw [inflection?] at found
  rw [singularChars_eq, inflected, found, Option.map_some, Option.getD_some,
    Inflection.apply_append lengthEq]

private theorem exists_split (found : inflection? name = some rule) :
    ∃ stem written, name = stem ++ written ∧ written.map Char.toLower = rule.ending ∧
      (rule.needsStem = true → stem ≠ []) ∧ singularChars name = stem ++ rule.inPlace written := by
  have recognized : rule.recognizes name = true := by simpa using List.find?_some found
  obtain ⟨stem, written, rfl, endingEq, stemmed⟩ := Inflection.recognizes_iff.1 recognized
  have lengthEq : written.length = rule.ending.length := by rw [← endingEq, List.length_map]
  exact ⟨stem, written, rfl, endingEq, stemmed, singularChars_append found lengthEq⟩

private theorem lawful_of_found (found : inflection? name = some rule) : rule.Lawful :=
  Inflection.lawful_of_mem (List.mem_of_find?_eq_some found)

/-! ### Small letters -/

private theorem inflection?_lower (name : List Char) : inflection?
    (name.map Char.toLower) = inflection? name := by
  simp only [inflection?, Inflection.recognizes_lower]

private theorem singularChars_lower (name : List Char) :
    (singularChars name).map Char.toLower = singularChars (name.map Char.toLower) := by
  have sameRule := inflection?_lower name
  cases found : inflection? name with
  | none =>
      rw [found] at sameRule
      rw [singularChars_of_none found, singularChars_of_none sameRule]
  | some rule =>
      obtain ⟨stem, written, rfl, endingEq, _, singularEq⟩ := exists_split found
      rw [found, List.map_append, endingEq] at sameRule
      rw [singularEq, List.map_append, (lawful_of_found found).lower written endingEq, List.map_append,
        endingEq, singularChars_append sameRule rfl]

private theorem singularChars_ne_nil (filled : name ≠ []) : singularChars name ≠ [] := by
  cases found : inflection? name with
  | none =>
      rw [singularChars_of_none found]
      exact filled
  | some rule =>
      obtain ⟨stem, written, rfl, endingEq, stemmed, singularEq⟩ := exists_split found
      have lawful := lawful_of_found found
      rw [singularEq]
      intro empty
      obtain ⟨noStem, noEnding⟩ := List.append_eq_nil_iff.1 empty
      rcases lawful.leaves with needs | remains
      · exact stemmed needs noStem
      · have lowered := lawful.lower written endingEq
        rw [noEnding] at lowered
        exact remains lowered.symm

/-! ### Irregular plurals -/

private theorem irregularPlurals_apart : ∀ pair ∈ irregularPlurals, ∀ other ∈ irregularPlurals,
    pair.1 <:+ other.1 → pair = other := by
  decide

private theorem inflection?_irregular {pair : List Char × List Char} (member : pair ∈ irregularPlurals)
    (ends : endsIn pair.1 name = true) : inflection? name = some (irregular pair) := by
  have first : (irregularPlurals.find? fun pair => endsIn pair.1 name) = some pair := by
    cases found : irregularPlurals.find? fun pair => endsIn pair.1 name with
    | none => exact absurd ends (List.find?_eq_none.1 found pair member)
    | some other =>
        have otherMember := List.mem_of_find?_eq_some found
        have otherEnds : endsIn other.1 name = true := by simpa using List.find?_some found
        rw [endsIn, List.isSuffixOf_iff_suffix] at ends otherEnds
        -- Two plurals at the end of one name would be one at the end of the other.
        rcases List.suffix_or_suffix_of_suffix ends otherEnds with inside | inside
        · rw [irregularPlurals_apart pair member other otherMember inside]
        · rw [irregularPlurals_apart other otherMember pair member inside]
  rw [inflection?, inflections, find?_irregular, first]
  rfl

private theorem singularChars_append_irregular {pair : List Char × List Char} {word : List Char}
    (member : pair ∈ irregularPlurals) (ends : endsIn pair.1 word = true) (lead : List Char) :
    singularChars (lead ++ word) = lead ++ singularChars word := by
  obtain ⟨stem, written, rfl, endingEq⟩ := endsIn_iff.1 ends
  have lengthEq : written.length = (irregular pair).ending.length := by
    rw [← List.length_map Char.toLower, endingEq]
    rfl
  have endsBehind (front : List Char) : endsIn pair.1 (front ++ written) = true :=
    endsIn_iff.2 ⟨front, written, rfl, endingEq⟩
  rw [singularChars_append (inflection?_irregular member (endsBehind stem)) lengthEq,
    ← List.append_assoc, ← List.append_assoc,
    singularChars_append (inflection?_irregular member (endsBehind (lead ++ stem))) lengthEq]

/-! ### Cuts between characters -/

/-- The text before the byte at the offset and the text from there on, if the offset is neither inside
a character nor beyond the end. -/
def cut? (text : String) (offset : Nat) : Option (String × String) :=
  if valid : (String.Pos.Raw.mk offset).IsValid text then
    some ((text.sliceTo (text.pos _ valid)).copy, (text.sliceFrom (text.pos _ valid)).copy)
  else none

def withoutLast? (bytes : Nat) (text : String) : Option String :=
  if bytes ≤ text.utf8ByteSize then (cut? text (text.utf8ByteSize - bytes)).map (·.1) else none

def rejoin (stem plural single : String) : String :=
  if plural.toList.head?.any isUppercase then
    match single.toList with
    | [] => stem
    | first :: rest => stem ++ String.ofList (toUppercase first ++ rest)
  else stem ++ single

def cutIrregular? (name : String) (pair : List Char × List Char) : Option String :=
  (withoutLast? (String.ofList pair.1).utf8ByteSize name).bind fun stem =>
    (cut? name stem.utf8ByteSize).map fun parts => rejoin stem parts.2 (String.ofList pair.2)

def cutSingular? (name : String) : Option String :=
  let lower := name.toLower
  match irregularPlurals.find? fun pair => lower.endsWith (String.ofList pair.1) with
  | some pair => cutIrregular? name pair
  | none =>
      if lower.endsWith "ies" && 3 < name.utf8ByteSize then (withoutLast? 3 name).map (· ++ "y")
      else if sibilantEndings.any fun ending => lower.endsWith (String.ofList ending) then
        withoutLast? 2 name
      else if lower.endsWith "ss" || lower.endsWith "us" then some name
      else if lower.endsWith "s" && 1 < name.utf8ByteSize then withoutLast? 1 name
      else some name

private theorem cut?_eq_some_iff {text front back : String} {offset : Nat} :
    cut? text offset = some (front, back) ↔ text = front ++ back ∧ front.utf8ByteSize = offset := by
  unfold cut?
  constructor
  · intro found
    split at found
    · rename_i valid
      have splits := (text.pos _ valid).splits
      cases found
      refine ⟨splits.eq_append, ?_⟩
      exact (congrArg String.Pos.Raw.byteIdx splits.offset_eq_rawEndPos).symm
    · cases found
  · rintro ⟨rfl, rfl⟩
    have valid : (String.Pos.Raw.mk front.utf8ByteSize).IsValid (front ++ back) :=
      String.Pos.Raw.isValid_iff_exists_append.2 ⟨front, back, rfl, rfl⟩
    have splits : ((front ++ back).pos _ valid).Splits front back := ⟨rfl, rfl⟩
    rw [dif_pos valid, splits.copy_sliceTo_eq, splits.copy_sliceFrom_eq]

example : cut? "né" 1 = some ("n", "é") ∧ cut? "né" 2 = none := by decide +kernel

private theorem withoutLast?_eq {name front back : String} {bytes : Nat} (nameEq : name = front ++ back)
    (sizeEq : back.utf8ByteSize = bytes) : withoutLast? bytes name = some front := by
  subst nameEq sizeEq
  rw [withoutLast?, String.utf8ByteSize_append, if_pos (Nat.le_add_left _ _), Nat.add_sub_cancel,
    cut?_eq_some_iff.2 ⟨rfl, rfl⟩, Option.map_some]

/-! ### Letters of one byte -/

def AreLetters (text : List Char) : Prop :=
  text.all Char.isAlpha = true

instance (text : List Char) : Decidable (AreLetters text) :=
  inferInstanceAs (Decidable (_ = true))

theorem AreLetters.isAlpha (letters : AreLetters written) {c : Char} (member : c ∈ written) :
    c.isAlpha = true :=
  List.all_eq_true.1 letters c member

theorem AreLetters.of_lower (letters : AreLetters suffix)
    (lowerEq : written.map Char.toLower = suffix) : AreLetters written := by
  subst lowerEq
  refine List.all_eq_true.2 fun c member => ?_
  rw [← Char.isAlpha_toLower_eq_isAlpha]
  exact letters.isAlpha (List.mem_map_of_mem member)

theorem AreLetters.drop (letters : AreLetters written) (count : Nat) :
    AreLetters (written.drop count) :=
  List.all_eq_true.2 fun _ member => letters.isAlpha (List.mem_of_mem_drop member)

/-- What holds of the 26 capitals holds of all that are taken for capitals. -/
private theorem forall_isUpper {P : Char → Prop} (capitals : ∀ place < 26, P (Char.ofNat (65 + place)))
    {c : Char} (capital : c.isUpper = true) : P c := by
  have bounds : 65 ≤ c.toNat ∧ c.toNat ≤ 90 := by
    simpa [Char.isUpper, UInt32.le_iff_toNat_le] using capital
  obtain ⟨place, placeEq⟩ := Nat.exists_eq_add_of_le bounds.1
  have holds := capitals place (by omega)
  rwa [← placeEq, Char.ofNat_toNat] at holds

private theorem forall_isLower {P : Char → Prop} (smalls : ∀ place < 26, P (Char.ofNat (97 + place)))
    {c : Char} (small : c.isLower = true) : P c := by
  have bounds : 97 ≤ c.toNat ∧ c.toNat ≤ 122 := by
    simpa [Char.isLower, UInt32.le_iff_toNat_le] using small
  obtain ⟨place, placeEq⟩ := Nat.exists_eq_add_of_le bounds.1
  have holds := smalls place (by omega)
  rwa [← placeEq, Char.ofNat_toNat] at holds

private theorem forall_isAlpha {P : Char → Prop} (capitals : ∀ place < 26, P (Char.ofNat (65 + place)))
    (smalls : ∀ place < 26, P (Char.ofNat (97 + place))) {c : Char} (letter : c.isAlpha = true) : P c := by
  rw [Char.isAlpha, Bool.or_eq_true] at letter
  cases letter with
  | inl capital => exact forall_isUpper capitals capital
  | inr small => exact forall_isLower smalls small

private theorem utf8Size_of_isAlpha {c : Char} (letter : c.isAlpha = true) : c.utf8Size = 1 :=
  forall_isAlpha (P := fun c => c.utf8Size = 1) (by decide) (by decide) letter

private theorem isUppercase_of_isAlpha {c : Char} (letter : c.isAlpha = true) :
    isUppercase c = c.isUpper :=
  forall_isAlpha (P := fun c => isUppercase c = c.isUpper) (by decide +kernel) (by decide +kernel) letter

private theorem toUppercase_of_isLower {c : Char} (small : c.isLower = true) : toUppercase c =
    [c.toUpper] :=
  forall_isLower (P := fun c => toUppercase c = [c.toUpper]) (by decide +kernel) small

theorem AreLetters.utf8Length_eq (letters : AreLetters written) :
    utf8Length written = written.length := by
  induction written with
  | nil => rfl
  | cons c rest ih =>
      rw [utf8Length_cons, utf8Size_of_isAlpha (letters.isAlpha List.mem_cons_self),
        ih (letters.drop 1), List.length_cons, Nat.add_comm]

private theorem rejoin_eq {plural single : List Char} (stem : List Char) (letters : AreLetters plural)
    (small : single.all Char.isLower = true) :
    rejoin (String.ofList stem) (String.ofList plural) (String.ofList single) =
      String.ofList (stem ++ capitalizedLike plural single) := by
  rw [rejoin, String.toList_ofList, String.toList_ofList]
  cases plural with
  | nil => rw [String.ofList_append]; rfl
  | cons p _ =>
      rw [List.head?_cons, Option.any_some, isUppercase_of_isAlpha (letters.isAlpha List.mem_cons_self)]
      cases single with
      | nil =>
          cases p.isUpper with
          | false => exact String.ofList_append.symm
          | true => exact congrArg String.ofList (List.append_nil stem).symm
      | cons c rest =>
          have large := toUppercase_of_isLower (List.all_eq_true.1 small c List.mem_cons_self)
          simp only [capitalizedLike, large]
          cases p.isUpper with
          | false => exact String.ofList_append.symm
          | true => exact String.ofList_append.symm

/-! ### Cuts at endings -/

private theorem endsWith_lower (name suffix : String) :
    name.toLower.endsWith suffix = endsIn suffix.toList name.toList := by
  rw [Bool.eq_iff_iff, endsIn, List.isSuffixOf_iff_suffix, ← String.endsWith_toSlice,
    String.Slice.endsWith_string_iff, String.copy_toSlice, String.toLower, String.toList_map]

private theorem endsIn_and_longer (name : String) (letters : AreLetters suffix) :
    (endsIn suffix name.toList && decide (suffix.length < name.utf8ByteSize)) =
      (endsIn suffix name.toList && decide (suffix.length < name.toList.length)) := by
  cases ends : endsIn suffix name.toList with
  | false => rfl
  | true =>
      obtain ⟨stem, written, nameEq, lowerEq⟩ := endsIn_iff.1 ends
      have lengthEq : written.length = suffix.length := by rw [← lowerEq, List.length_map]
      have atLeast := length_le_utf8Length stem
      rw [utf8ByteSize_eq, nameEq, utf8Length_append, (letters.of_lower lowerEq).utf8Length_eq,
        List.length_append, lengthEq, Bool.true_and, Bool.true_and, decide_eq_decide]
      cases stem with
      | nil => exact Iff.rfl
      | cons c rest =>
          rw [List.length_cons] at atLeast ⊢
          omega

private theorem withoutLast?_of_endsIn {name : String} {count : Nat}
    (ends : endsIn suffix name.toList = true) (letters : AreLetters suffix) (short : count ≤ suffix.length) :
    withoutLast? count name = some (String.ofList (dropEnd count name.toList)) := by
  obtain ⟨stem, written, nameEq, lowerEq⟩ := endsIn_iff.1 ends
  have lengthEq : written.length = suffix.length := by rw [← lowerEq, List.length_map]
  have lastLetters := (letters.of_lower lowerEq).drop (written.length - count)
  have splitEq : name = String.ofList (dropEnd count name.toList) ++
      String.ofList (written.drop (written.length - count)) := by
    rw [← String.ofList_append, nameEq, dropEnd_append stem (by omega), List.append_assoc, dropEnd,
      List.take_append_drop, ← nameEq, String.ofList_toList]
  have sizeEq : (String.ofList (written.drop (written.length - count))).utf8ByteSize = count := by
    rw [utf8ByteSize_ofList, lastLetters.utf8Length_eq, List.length_drop]
    omega
  exact withoutLast?_eq splitEq sizeEq

private theorem cutIrregular?_eq {name : String} {pair : List Char × List Char}
    (member : pair ∈ irregularPlurals) (ends : endsIn pair.1 name.toList = true) :
    cutIrregular? name pair = some (singular name) := by
  have all : ∀ pair ∈ irregularPlurals, AreLetters pair.1 ∧ pair.2.all Char.isLower = true := by decide
  obtain ⟨letters, small⟩ := all pair member
  have found := inflection?_irregular member ends
  have kept := withoutLast?_of_endsIn ends letters (Nat.le_refl _)
  obtain ⟨stem, written, nameEq, lowerEq⟩ := endsIn_iff.1 ends
  have lengthEq : written.length = pair.1.length := by rw [← lowerEq, List.length_map]
  have splitEq : name = String.ofList stem ++ String.ofList written := by
    rw [← String.ofList_append, ← nameEq, String.ofList_toList]
  rw [nameEq] at found kept
  rw [← lengthEq, dropEnd_append stem (Nat.le_refl _), dropEnd_length, List.append_nil] at kept
  rw [cutIrregular?, utf8ByteSize_ofList, letters.utf8Length_eq, ← lengthEq, kept, Option.bind_some,
    cut?_eq_some_iff.2 ⟨splitEq, rfl⟩, Option.map_some,
    rejoin_eq stem (letters.of_lower lowerEq) small, singular, nameEq,
    singularChars_append found lengthEq]
  rfl

/-- Every cut is between characters, and what comes of the cuts is the singular. -/
private theorem cutSingular?_eq (name : String) : cutSingular? name = some (singular name) := by
  unfold cutSingular?
  simp only [endsWith_lower, String.toList_ofList]
  cases found : irregularPlurals.find? fun pair => endsIn pair.1 name.toList with
  | some pair =>
      have ends : endsIn pair.1 name.toList = true := by simpa using List.find?_some found
      exact cutIrregular?_eq (List.mem_of_find?_eq_some found) ends
  | none =>
      have sibilants : ∀ ending ∈ sibilantEndings, AreLetters ending ∧ 2 ≤ ending.length := by decide
      have iesEq : (endsIn "ies".toList name.toList && decide (3 < name.utf8ByteSize)) =
          (endsIn "ies".toList name.toList && decide (3 < name.toList.length)) :=
        endsIn_and_longer name (by decide)
      have sEq : (endsIn "s".toList name.toList && decide (1 < name.utf8ByteSize)) =
          (endsIn ['s'] name.toList && decide (1 < name.toList.length)) :=
        endsIn_and_longer name (by decide)
      simp only [singular, singularChars, found, iesEq, sEq, Bool.and_eq_true, List.any_eq_true]
      split_ifs with ies sibilant unchanged ends
      · rw [withoutLast?_of_endsIn ies.1 (by decide) (by decide), Option.map_some,
          String.ofList_append]
      · obtain ⟨ending, member, endsInIt⟩ := sibilant
        obtain ⟨letters, long⟩ := sibilants ending member
        rw [withoutLast?_of_endsIn endsInIt letters long]
      · rw [String.ofList_toList]
      · rw [withoutLast?_of_endsIn ends.1 (by decide) (by decide)]
      · rw [String.ofList_toList]

/-! ### Names -/

def EndsInIrregular (word : String) : Prop :=
  ∃ pair ∈ irregularPlurals, pair.1 <:+ word.toLower.toList

/-- The singular of a name is found by cuts between its characters, in the same way whatever the case
of its letters, and is never empty.  It is the name with another ending, if some rule recognises the
name, and the name itself if none does.  An irregular plural may have anything before it. -/
theorem singular_replaces_ending (name : String) :
    cutSingular? name = some (singular name) ∧
    (singular name).toLower = singular name.toLower ∧
    (name ≠ "" → singular name ≠ "") ∧
    (∀ rule, inflection? name.toList = some rule → ∃ stem written, name = stem ++ written ∧
      written.toLower.toList = rule.ending ∧
      singular name = stem ++ String.ofList (rule.inPlace written.toList)) ∧
    (inflection? name.toList = none → singular name = name) ∧
    ∀ lead word, name = lead ++ word → EndsInIrregular word →
      singular name = lead ++ singular word := by
  refine ⟨cutSingular?_eq name, ?lower, ?filled, ?kept, ?unrecognized, ?irregular⟩
  case lower =>
    rw [← String.toList_inj, String.toLower, String.toList_map, singular, singular,
      String.toList_ofList, String.toList_ofList, singularChars_lower, String.toLower, String.toList_map]
  case filled =>
    intro filled empty
    have someChars : name.toList ≠ [] := fun noChars => filled (String.toList_eq_nil_iff.1 noChars)
    have noChars := congrArg String.toList empty
    rw [singular, String.toList_ofList] at noChars
    exact singularChars_ne_nil someChars noChars
  case kept =>
    intro rule found
    obtain ⟨stem, written, nameEq, endingEq, _, singularEq⟩ := exists_split found
    refine ⟨String.ofList stem, String.ofList written, ?_, ?_, ?_⟩
    · rw [← String.ofList_append, ← nameEq, String.ofList_toList]
    · rw [String.toLower, String.toList_map, String.toList_ofList, endingEq]
    · rw [singular, singularEq, String.ofList_append, String.toList_ofList]
  case unrecognized =>
    intro missing
    rw [singular, singularChars_of_none missing, String.ofList_toList]
  case irregular =>
    rintro lead word rfl ⟨pair, member, ends⟩
    rw [String.toLower, String.toList_map] at ends
    rw [singular, singular, String.toList_append,
      singularChars_append_irregular member (List.isSuffixOf_iff_suffix.2 ends), String.ofList_append,
      String.ofList_toList]

/-- People in a café, in capitals but for the café.  There are no plural data. -/
theorem singular_replaces_ending_of_people :
    cutSingular? "caféPEOPLE" = some "caféPerson" ∧
    (singular "caféPEOPLE").toLower = singular "cafépeople" ∧
    ("caféPEOPLE" ≠ "" ∧ singular "caféPEOPLE" ≠ "") ∧
    (∃ rule stem written, inflection? "caféPEOPLE".toList = some rule ∧
      rule.ending = "people".toList ∧ "caféPEOPLE" = stem ++ written ∧
      written.toLower.toList = rule.ending ∧
      singular "caféPEOPLE" = stem ++ String.ofList (rule.inPlace written.toList)) ∧
    (inflection? "data".toList = none ∧ singular "data" = "data") ∧
    "caféPEOPLE" = "café" ++ "PEOPLE" ∧ EndsInIrregular "PEOPLE" ∧
      singular "caféPEOPLE" = "café" ++ singular "PEOPLE" := by
  have recognized : (inflection? "caféPEOPLE".toList).any
      (fun rule => rule.ending = "people".toList) = true := by
    decide +kernel
  simp only [Option.any_eq_true, decide_eq_true_eq] at recognized
  obtain ⟨rule, found, endingEq⟩ := recognized
  have missing : inflection? "data".toList = none := by
    rw [← Option.isNone_iff_eq_none]
    decide +kernel
  have singularEq : singular "caféPEOPLE" = "caféPerson" := by decide +kernel
  have lowerEq : "caféPEOPLE".toLower = "cafépeople" := by decide +kernel
  have filled : "caféPEOPLE" ≠ "" := by decide
  have splits : "caféPEOPLE" = "café" ++ "PEOPLE" := by decide +kernel
  have ends : EndsInIrregular "PEOPLE" :=
    ⟨("people".toList, "person".toList), by decide +kernel, by decide +kernel⟩
  obtain ⟨cuts, lowered, leaves, kept, _, irregular⟩ := singular_replaces_ending "caféPEOPLE"
  obtain ⟨stem, written, nameEq, writtenEq, keptEq⟩ := kept rule found
  obtain ⟨_, _, _, _, unrecognized, _⟩ := singular_replaces_ending "data"
  rw [singularEq] at cuts
  rw [lowerEq] at lowered
  exact ⟨cuts, lowered, ⟨filled, leaves filled⟩,
    ⟨rule, stem, written, found, endingEq, nameEq, writtenEq, keptEq⟩, ⟨missing, unrecognized missing⟩,
    splits, ends, irregular "café" "PEOPLE" splits ends⟩

end Trellis.Schema
