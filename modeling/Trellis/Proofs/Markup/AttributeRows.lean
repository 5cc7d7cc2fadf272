import Trellis.Proofs.Markup.Attributes

/-!
Rows of attributes in a tag.

Attributes with names of their own are read one by one, each with the blanks around it, and a repeated
name is refused.  So the attributes of a tag are those of its row.
-/

namespace Trellis.Markup

/-! ### Attributes as they stand in a tag -/

/-- An attribute with the blanks in front of it and around its equals sign. -/
structure WrittenAttribute where
  before : String
  name : String
  left : String
  right : String
  quote : Char
  value : String
  deriving DecidableEq

namespace WrittenAttribute

def text (written : WrittenAttribute) : String :=
  written.before ++ written.name ++ written.left ++ "=" ++ written.right ++
    String.singleton written.quote ++ written.value ++ String.singleton written.quote

structure WellFormed (written : WrittenAttribute) : Prop where
  before_ne : written.before.toList ≠ []
  before : ∀ c ∈ written.before.toList, isTagBlank c = true
  name_ne : written.name.toList ≠ []
  name : ∀ c ∈ written.name.toList, isTagBlank c = false ∧ c ∉ ['=', '>', '"', '\'']
  left : ∀ c ∈ written.left.toList, isTagBlank c = true
  right : ∀ c ∈ written.right.toList, isTagBlank c = true
  quote : written.quote ∈ ['"', '\'']
  value : ∀ c ∈ written.value.toList, c ≠ written.quote

theorem toList_text (written : WrittenAttribute) :
    written.text.toList = written.before.toList ++ (written.name.toList ++ (written.left.toList ++
      '=' :: (written.right.toList ++ written.quote :: (written.value.toList ++ [written.quote])))) := by
  simp only [text, String.toList_append, String.toList_singleton, List.append_assoc]
  rfl

end WrittenAttribute

/-! ### Reading them -/

namespace AttributeReader

def Waits (reader : AttributeReader) : Prop :=
  match reader.phase with
  | .between | .afterName _ _ | .beforeValue _ _ => True
  | _ => False

def Failed (reader : AttributeReader) : Prop :=
  ∃ error, reader.phase = .failed error

variable {reader : AttributeReader}

theorem foldl_step_of_failed (failed : reader.Failed) (chars : List Char) :
    chars.foldl (AttributeReader.step true) reader = reader := by
  obtain ⟨error, phaseEq⟩ := failed
  induction chars with
  | nil => rfl
  | cons c rest ih =>
      have stays : reader.step true c = reader := by simp only [AttributeReader.step, phaseEq]
      rw [List.foldl_cons, stays, ih]

private theorem foldl_blanks (waits : reader.Waits) {chars : List Char}
    (blank : ∀ c ∈ chars, isTagBlank c = true) :
    (chars.foldl (AttributeReader.step true) reader).phase = reader.phase ∧
      (chars.foldl (AttributeReader.step true) reader).done = reader.done := by
  induction chars generalizing reader with
  | nil => exact ⟨rfl, rfl⟩
  | cons c rest ih =>
      have isBlank := blank c List.mem_cons_self
      have step : (reader.step true c).phase = reader.phase ∧
          (reader.step true c).done = reader.done := by
        unfold Waits at waits
        unfold AttributeReader.step
        cases phaseEq : reader.phase <;> simp [phaseEq, isBlank] at waits ⊢
      have waits' : (reader.step true c).Waits := by
        rw [Waits, step.1]
        exact waits
      obtain ⟨phaseEq, doneEq⟩ := ih waits' fun d member => blank d (List.mem_cons_of_mem c member)
      exact ⟨phaseEq.trans step.1, doneEq.trans step.2⟩

private theorem foldl_name {start : Nat} {taken : List Char}
    (phaseEq : reader.phase = .name start taken)
    {chars : List Char} (solid : ∀ c ∈ chars, isTagBlank c = false ∧ c ≠ '=') :
    (chars.foldl (AttributeReader.step true) reader).phase = .name start (chars.reverse ++ taken) ∧
      (chars.foldl (AttributeReader.step true) reader).done = reader.done := by
  induction chars generalizing reader taken with
  | nil => exact ⟨phaseEq, rfl⟩
  | cons c rest ih =>
      obtain ⟨noBlank, noEquals⟩ := solid c List.mem_cons_self
      have step : (reader.step true c).phase = .name start (c :: taken) ∧
          (reader.step true c).done = reader.done := by
        simp [AttributeReader.step, phaseEq, noBlank, noEquals]
      obtain ⟨later, doneEq⟩ := ih step.1 fun d member => solid d (List.mem_cons_of_mem c member)
      rw [List.foldl_cons, List.reverse_cons, List.append_assoc]
      exact ⟨later, doneEq.trans step.2⟩

private theorem foldl_value {start : Nat} {name : String} {quote : Char} {taken : List Char}
    (phaseEq : reader.phase = .value start name quote taken) {chars : List Char}
    (unquoted : ∀ c ∈ chars, c ≠ quote) :
    (chars.foldl (AttributeReader.step true) reader).phase =
        .value start name quote (chars.reverse ++ taken) ∧
      (chars.foldl (AttributeReader.step true) reader).done = reader.done := by
  induction chars generalizing reader taken with
  | nil => exact ⟨phaseEq, rfl⟩
  | cons c rest ih =>
      have step : (reader.step true c).phase = .value start name quote (c :: taken) ∧
          (reader.step true c).done = reader.done := by
        simp [AttributeReader.step, phaseEq, unquoted c List.mem_cons_self]
      obtain ⟨later, doneEq⟩ := ih step.1 fun d member => unquoted d (List.mem_cons_of_mem c member)
      rw [List.foldl_cons, List.reverse_cons, List.append_assoc]
      exact ⟨later, doneEq.trans step.2⟩

private theorem foldl_equals {start : Nat} {taken : List Char}
    (phaseEq : reader.phase = .name start taken)
    {blanks : List Char} (blank : ∀ c ∈ blanks, isTagBlank c = true) (rest : List Char) :
    ∃ reader' : AttributeReader,
      (blanks ++ '=' :: rest).foldl (AttributeReader.step true) reader =
        rest.foldl (AttributeReader.step true) reader' ∧
      reader'.phase = reader.afterEquals true start taken ∧ reader'.done = reader.done := by
  rw [List.foldl_append, List.foldl_cons]
  refine ⟨_, rfl, ?_⟩
  cases blanks with
  | nil => simp [AttributeReader.step, phaseEq]
  | cons c more =>
      have isBlank := blank c List.mem_cons_self
      have noEquals : c ≠ '=' := by
        rintro rfl
        cases isBlank
      have step : (reader.step true c).phase = .afterName start taken ∧
          (reader.step true c).done = reader.done := by
        simp [AttributeReader.step, phaseEq, isBlank, noEquals]
      have waits : (reader.step true c).Waits := by
        rw [Waits, step.1]
        trivial
      obtain ⟨later, doneEq⟩ := foldl_blanks waits fun d member => blank d (List.mem_cons_of_mem c member)
      rw [step.1] at later
      rw [step.2] at doneEq
      rw [List.foldl_cons]
      generalize more.foldl (AttributeReader.step true) (reader.step true c) = reached at later doneEq
      have noBlank : isTagBlank '=' = false := by decide
      simp [AttributeReader.step, later, noBlank, AttributeReader.afterEquals, doneEq]

section Written

variable {written : WrittenAttribute} (wellFormed : written.WellFormed)
variable (between : reader.phase = .between)
include wellFormed between

private theorem foldl_written_name :
    ∃ (start : Nat) (reader' : AttributeReader),
      written.text.toList.foldl (AttributeReader.step true) reader =
        (written.right.toList ++ written.quote :: (written.value.toList ++ [written.quote])).foldl
          (AttributeReader.step true) reader' ∧
      reader'.phase = reader.afterEquals true start written.name.toList.reverse ∧
      reader'.done = reader.done := by
  have waits : reader.Waits := by
    rw [Waits, between]
    trivial
  obtain ⟨phaseEq, doneEq⟩ := foldl_blanks waits wellFormed.before
  rw [between] at phaseEq
  rw [written.toList_text, List.foldl_append]
  generalize written.before.toList.foldl (AttributeReader.step true) reader = reached
    at phaseEq doneEq
  have solid := wellFormed.name
  have filled := wellFormed.name_ne
  cases nameEq : written.name.toList with
  | nil => exact absurd nameEq filled
  | cons c rest =>
      rw [nameEq] at solid
      have first := (solid c List.mem_cons_self).1
      have step : (reached.step true c).phase = .name reached.offset [c] ∧
          (reached.step true c).done = reached.done := by
        simp [AttributeReader.step, phaseEq, first]
      have solidRest : ∀ d ∈ rest, isTagBlank d = false ∧ d ≠ '=' := by
        intro d member
        obtain ⟨noBlank, other⟩ := solid d (List.mem_cons_of_mem c member)
        exact ⟨noBlank, fun isEquals => other (isEquals ▸ List.mem_cons_self)⟩
      obtain ⟨named, namedDone⟩ := foldl_name step.1 solidRest
      rw [List.cons_append, List.foldl_cons, List.foldl_append]
      obtain ⟨reader', goesOn, phaseEq', doneEq'⟩ := foldl_equals named wellFormed.left
        (written.right.toList ++ written.quote :: (written.value.toList ++ [written.quote]))
      have sameDone := namedDone.trans (step.2.trans doneEq)
      refine ⟨reached.offset, reader', goesOn, ?_, doneEq'.trans sameDone⟩
      rw [phaseEq', AttributeReader.afterEquals, AttributeReader.afterEquals, sameDone,
        List.reverse_cons]

private theorem foldl_written (fresh : ∀ raw ∈ reader.done, raw.name ≠ written.name) :
    ∃ start, (written.text.toList.foldl (AttributeReader.step true) reader).phase = .between ∧
      (written.text.toList.foldl (AttributeReader.step true) reader).done =
        ⟨written.name, written.value.toList, start⟩ :: reader.done := by
  obtain ⟨start, reader', foldEq, phaseEq, doneEq⟩ := foldl_written_name wellFormed between
  have new : reader.done.find? (·.name == written.name) = none := by
    rw [List.find?_eq_none]
    intro raw member
    simpa using fresh raw member
  simp only [AttributeReader.afterEquals, List.reverse_reverse, String.ofList_toList, if_true, new]
    at phaseEq
  have waits : reader'.Waits := by
    rw [Waits, phaseEq]
    trivial
  obtain ⟨awaits, awaitsDone⟩ := foldl_blanks waits wellFormed.right
  rw [foldEq, List.foldl_append, List.foldl_cons, List.foldl_append, List.foldl_cons, List.foldl_nil]
  generalize written.right.toList.foldl (AttributeReader.step true) reader' = reached
    at awaits awaitsDone
  rw [phaseEq] at awaits
  have isQuote := wellFormed.quote
  simp only [List.mem_cons, List.not_mem_nil, or_false] at isQuote
  have noBlank : isTagBlank written.quote = false := by
    rcases isQuote with same | same
    · rw [same]
      rfl
    · rw [same]
      rfl
  have opens : (reached.step true written.quote).phase = .value start written.name written.quote [] ∧
      (reached.step true written.quote).done = reached.done := by
    simp [AttributeReader.step, awaits, noBlank, isQuote]
  obtain ⟨inValue, inValueDone⟩ := foldl_value opens.1 wellFormed.value
  generalize written.value.toList.foldl (AttributeReader.step true) (reached.step true written.quote) =
    last at inValue inValueDone
  rw [opens.2, awaitsDone, doneEq] at inValueDone
  refine ⟨start, ?_⟩
  simp [AttributeReader.step, inValue, inValueDone]

private theorem foldl_written_repeated {raw : RawAttribute} (member : raw ∈ reader.done)
    (same : raw.name = written.name) :
    (written.text.toList.foldl (AttributeReader.step true) reader).Failed := by
  obtain ⟨start, reader', foldEq, phaseEq, _⟩ := foldl_written_name wellFormed between
  have failed : reader'.Failed := by
    cases found : reader.done.find? (·.name == written.name) with
    | none =>
        rw [List.find?_eq_none] at found
        exact absurd (beq_iff_eq.2 same) (found raw member)
    | some earlier =>
        simp only [AttributeReader.afterEquals, List.reverse_reverse, String.ofList_toList, if_true,
          found] at phaseEq
        exact ⟨_, phaseEq⟩
  rw [foldEq, foldl_step_of_failed failed]
  exact failed

end Written

end AttributeReader

def attributesText : List WrittenAttribute → String
  | [] => ""
  | written :: row => written.text ++ attributesText row

def WrittenAttribute.IsRead (written : WrittenAttribute) (raw : RawAttribute) : Prop :=
  raw.name = written.name ∧ raw.value = written.value.toList

def WrittenAttribute.Means (extended : Bool) (written : WrittenAttribute) (pair : String × String) :
    Prop :=
  written.name = pair.1 ∧ decode extended written.value.toList = .ok pair.2

section Rows

variable {row : List WrittenAttribute} (wellFormed : ∀ written ∈ row, written.WellFormed)
include wellFormed

/-- Attributes with new names of their own are all read. -/
theorem AttributeReader.foldl_row {reader : AttributeReader} (between : reader.phase = .between)
    (distinct : (row.map (·.name)).Nodup)
    (fresh : ∀ raw ∈ reader.done, ∀ written ∈ row, raw.name ≠ written.name) :
    ∃ raws, ((attributesText row).toList.foldl (AttributeReader.step true) reader).phase = .between ∧
      ((attributesText row).toList.foldl (AttributeReader.step true) reader).done =
        raws.reverse ++ reader.done ∧
      List.Forall₂ WrittenAttribute.IsRead row raws := by
  induction row generalizing reader with
  | nil => exact ⟨[], between, rfl, .nil⟩
  | cons written row ih =>
      rw [List.map_cons, List.nodup_cons] at distinct
      have first := wellFormed written List.mem_cons_self
      obtain ⟨start, phaseEq, doneEq⟩ := foldl_written first between
        fun raw member => fresh raw member written List.mem_cons_self
      rw [attributesText, String.toList_append, List.foldl_append]
      generalize written.text.toList.foldl (AttributeReader.step true) reader = reached
        at phaseEq doneEq
      have freshRest : ∀ raw ∈ reached.done, ∀ later ∈ row, raw.name ≠ later.name := by
        intro raw member later inRow
        rw [doneEq] at member
        rcases List.mem_cons.1 member with rfl | earlier
        · intro same
          exact distinct.1 (List.mem_map.2 ⟨later, inRow, same.symm⟩)
        · exact fresh raw earlier later (List.mem_cons_of_mem _ inRow)
      obtain ⟨raws, lastPhase, lastDone, areRead⟩ :=
        ih (fun later member => wellFormed later (List.mem_cons_of_mem _ member)) phaseEq distinct.2
          freshRest
      refine ⟨⟨written.name, written.value.toList, start⟩ :: raws, lastPhase, ?_,
        .cons ⟨rfl, rfl⟩ areRead⟩
      rw [lastDone, doneEq, List.reverse_cons, List.append_assoc, List.singleton_append]

/-- Where attributes are read without a mistake, their names are new and their own. -/
theorem AttributeReader.distinct_of_foldl_row {reader : AttributeReader}
    (between : reader.phase = .between)
    (alive : ¬ ((attributesText row).toList.foldl (AttributeReader.step true) reader).Failed) :
    (row.map (·.name)).Nodup ∧ ∀ raw ∈ reader.done, ∀ written ∈ row, raw.name ≠ written.name := by
  induction row generalizing reader with
  | nil => exact ⟨.nil, fun _ _ => nofun⟩
  | cons written row ih =>
      have first := wellFormed written List.mem_cons_self
      rw [attributesText, String.toList_append, List.foldl_append] at alive
      have new : ∀ raw ∈ reader.done, raw.name ≠ written.name := by
        intro raw member same
        have failed := foldl_written_repeated first between member same
        rw [foldl_step_of_failed failed] at alive
        exact alive failed
      obtain ⟨start, phaseEq, doneEq⟩ := foldl_written first between new
      obtain ⟨distinct, fresh⟩ :=
        ih (fun later member => wellFormed later (List.mem_cons_of_mem _ member)) phaseEq alive
      rw [doneEq, List.forall_mem_cons] at fresh
      rw [List.map_cons, List.nodup_cons]
      refine ⟨⟨?_, distinct⟩, ?_⟩
      · intro member
        obtain ⟨later, inRow, same⟩ := List.mem_map.1 member
        exact fresh.1 later inRow same.symm
      · intro raw member
        rw [List.forall_mem_cons]
        exact ⟨new raw member, fresh.2 raw member⟩

omit wellFormed in
private theorem means_iff_of_isRead {extended : Bool} {raws : List RawAttribute}
    (areRead : List.Forall₂ WrittenAttribute.IsRead row raws) {attributes : List (String × String)} :
    List.Forall₂ (RawAttribute.Means extended) raws attributes ↔
      List.Forall₂ (WrittenAttribute.Means extended) row attributes := by
  induction areRead generalizing attributes with
  | nil => rw [List.forall₂_nil_left_iff, List.forall₂_nil_left_iff]
  | cons first _ ih =>
      rw [List.forall₂_cons_left_iff, List.forall₂_cons_left_iff]
      simp only [ih, RawAttribute.Means, WrittenAttribute.Means, first.1, first.2]

theorem decodeAttributes_row {tail : List Char} (blank : ∀ c ∈ tail, isTagBlank c = true)
    {extended : Bool} {offset : Nat} {attributes : List (String × String)} :
    decodeAttributes extended offset ((attributesText row).toList ++ tail) = .ok attributes ↔
      (row.map (·.name)).Nodup ∧
        List.Forall₂ (WrittenAttribute.Means extended) row attributes := by
  have begun : (AttributeReader.mk .between offset []).phase = .between := rfl
  have reads (distinct : (row.map (·.name)).Nodup) : ∃ raws,
      readAttributes true offset ((attributesText row).toList ++ tail) = (raws, none) ∧
        List.Forall₂ WrittenAttribute.IsRead row raws := by
    obtain ⟨raws, phaseEq, doneEq, areRead⟩ :=
      AttributeReader.foldl_row wellFormed begun distinct fun _ => nofun
    have waits : ((attributesText row).toList.foldl (AttributeReader.step true)
        ⟨.between, offset, []⟩).Waits := by
      rw [AttributeReader.Waits, phaseEq]
      trivial
    obtain ⟨lastPhase, lastDone⟩ := AttributeReader.foldl_blanks waits blank
    refine ⟨raws, ?_, areRead⟩
    simp only [readAttributes, AttributeReader.mistake?, List.foldl_append, lastPhase, lastDone,
      phaseEq, doneEq, List.append_nil, List.reverse_reverse]
  rw [decodeAttributes_eq_ok_iff]
  constructor
  · rintro ⟨noMistake, means⟩
    have alive : ¬ ((attributesText row).toList.foldl (AttributeReader.step true)
        ⟨.between, offset, []⟩).Failed := by
      intro failed
      have stays := AttributeReader.foldl_step_of_failed failed tail
      obtain ⟨error, phaseEq⟩ := failed
      simp only [readAttributes, AttributeReader.mistake?, List.foldl_append, stays, phaseEq]
        at noMistake
      cases noMistake
    obtain ⟨distinct, _⟩ := AttributeReader.distinct_of_foldl_row wellFormed begun alive
    obtain ⟨raws, readEq, areRead⟩ := reads distinct
    rw [readEq] at means
    exact ⟨distinct, (means_iff_of_isRead areRead).1 means⟩
  · rintro ⟨distinct, means⟩
    obtain ⟨raws, readEq, areRead⟩ := reads distinct
    rw [readEq]
    exact ⟨rfl, (means_iff_of_isRead areRead).2 means⟩

end Rows

end Trellis.Markup
