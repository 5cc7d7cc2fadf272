import Mathlib.Algebra.Ring.Nat
import Trellis.Calendar.DateTime

/-!
Texts of moments.

Every number in the text of a moment has its place, so no two days and no two times of day have one
text.  The one exception would be a fraction beyond a whole second that is not in a leap second.
-/

namespace Trellis.Calendar

open Number (isDigit_of_mem_natDigits natDigits paddedDigits)

/-! ### Digits -/

private theorem ofDigitChars_zeros (count : Nat) (digits : List Char) :
    Nat.ofDigitChars 10 (List.replicate count '0' ++ digits) 0 = Nat.ofDigitChars 10 digits 0 := by
  induction count with
  | zero => rfl
  | succ count ih =>
      rw [List.replicate_succ, List.cons_append, Nat.ofDigitChars_cons]
      exact ih

private theorem paddedDigits_injective {width n m : Nat}
    (same : paddedDigits width n = paddedDigits width m) :
    n = m := by
  have value (k : Nat) : Nat.ofDigitChars 10 (paddedDigits width k) 0 = k := by
    rw [paddedDigits, ofDigitChars_zeros]
    exact Nat.ofDigitChars_ten_toDigits
  rw [← value n, ← value m, same]

private theorem length_paddedDigits {width n : Nat} (positive : 0 < width) (less : n < 10 ^ width) :
    (paddedDigits width n).length = width := by
  have short : (natDigits n).length ≤ width :=
    (Nat.length_toDigits_le_iff (by decide) positive).2 less
  simp only [paddedDigits, List.length_append, List.length_replicate]
  omega

private theorem length_twoDigits {n : Nat} (less : n < 100) : (paddedDigits 2 n).length = 2 :=
  length_paddedDigits (by decide) less

private theorem isDigit_of_mem_paddedDigits {width n : Nat} {c : Char}
    (member : c ∈ paddedDigits width n) :
    c.isDigit = true := by
  rcases List.mem_append.1 member with zero | digit
  · rw [List.eq_of_mem_replicate zero]
    decide
  · exact isDigit_of_mem_natDigits digit

/-- What stands in front of the first of two equal marks is the same. -/
private theorem append_mark_inj {mark : Char} {front front' back back' : List Char}
    (free : mark ∉ front)
    (free' : mark ∉ front') (same : front ++ mark :: back = front' ++ mark :: back') :
    front = front' ∧ back = back' := by
  induction front generalizing front' with
  | nil =>
      cases front' with
      | nil => exact ⟨rfl, (List.cons.inj same).2⟩
      | cons c rest =>
          have first : mark = c := (List.cons.inj same).1
          exact absurd (first ▸ List.mem_cons_self) free'
  | cons c rest ih =>
      cases front' with
      | nil =>
          have first : c = mark := (List.cons.inj same).1
          exact absurd (first ▸ List.mem_cons_self) free
      | cons c' rest' =>
          obtain ⟨first, later⟩ := List.cons.inj same
          obtain ⟨restEq, backEq⟩ := ih (fun member => free (List.mem_cons_of_mem _ member))
            (fun member => free' (List.mem_cons_of_mem _ member)) later
          exact ⟨by rw [first, restEq], backEq⟩

/-! ### Times of day -/

/-- A fraction reaches beyond a whole second in the last second of a minute only. -/
def TimeOfDay.Regular (time : TimeOfDay) : Prop :=
  nanosecondsPerSecond ≤ time.nanosecond → time.second % 60 = 59

private theorem fractionText_eq {nanosecond : Nat} (less : nanosecond < nanosecondsPerSecond)
    (positive : nanosecond ≠ 0) :
    ∃ digits, digits ≤ 9 ∧ nanosecond % 10 ^ (9 - digits) = 0 ∧
      fractionText nanosecond = '.' :: paddedDigits digits (nanosecond / 10 ^ (9 - digits)) ∧
      (fractionText nanosecond).length = digits + 1 := by
  unfold nanosecondsPerSecond at less
  unfold fractionText
  rw [if_neg positive]
  split
  · rename_i thousandths
    refine ⟨3, by decide, thousandths, rfl, ?_⟩
    rw [List.length_cons, length_paddedDigits (by decide) (by omega)]
  · split
    · rename_i millionths
      refine ⟨6, by decide, millionths, rfl, ?_⟩
      rw [List.length_cons, length_paddedDigits (by decide) (by omega)]
    · refine ⟨9, by decide, by omega, ?_, ?_⟩
      · simp
      · rw [List.length_cons, length_paddedDigits (by decide) (by omega)]

private theorem fractionText_injective {n m : Nat} (less : n < nanosecondsPerSecond)
    (less' : m < nanosecondsPerSecond) (same : fractionText n = fractionText m) : n = m := by
  have zero : fractionText 0 = [] := rfl
  by_cases none : n = 0
  · by_cases none' : m = 0
    · rw [none, none']
    · obtain ⟨digits, _, _, textEq, _⟩ := fractionText_eq less' none'
      rw [← same, none, zero] at textEq
      cases textEq
  · obtain ⟨digits, _, whole, textEq, lengthEq⟩ := fractionText_eq less none
    by_cases none' : m = 0
    · rw [same, none', zero] at textEq
      cases textEq
    · obtain ⟨digits', _, whole', textEq', lengthEq'⟩ := fractionText_eq less' none'
      rw [same, lengthEq'] at lengthEq
      have digitsEq : digits' = digits := by omega
      rw [digitsEq] at textEq' whole'
      rw [textEq, textEq'] at same
      have parts := paddedDigits_injective (List.cons.inj same).2
      rw [← Nat.div_add_mod n (10 ^ (9 - digits)), ← Nat.div_add_mod m (10 ^ (9 - digits)), whole,
        whole', parts]

theorem TimeOfDay.text_injective {time time' : TimeOfDay} (regular : time.Regular)
    (regular' : time'.Regular) (same : time.text = time'.text) : time = time' := by
  have bound := time.second_lt
  have bound' := time'.second_lt
  have fraction := time.nanosecond_lt
  have fraction' := time'.nanosecond_lt
  unfold secondsPerDay at bound bound'
  unfold TimeOfDay.Regular at regular regular'
  unfold TimeOfDay.text at same
  unfold nanosecondsPerSecond at *
  simp only [List.append_assoc, List.cons_append] at same
  obtain ⟨hours, same⟩ := List.append_inj same
    (by rw [length_twoDigits (by omega), length_twoDigits (by omega)])
  obtain ⟨minutes, same⟩ := List.append_inj (List.cons.inj same).2
    (by rw [length_twoDigits (by omega), length_twoDigits (by omega)])
  obtain ⟨seconds, fractions⟩ := List.append_inj (List.cons.inj same).2
    (by rw [length_twoDigits (by omega), length_twoDigits (by omega)])
  have hours := paddedDigits_injective hours
  have minutes := paddedDigits_injective minutes
  have seconds := paddedDigits_injective seconds
  have fractions : time.nanosecond % 1000000000 = time'.nanosecond % 1000000000 :=
    fractionText_injective (Nat.mod_lt _ (by decide)) (Nat.mod_lt _ (by decide)) fractions
  -- The second sixty shows as a fraction beyond a whole second, which is regular in one second only.
  have secondEq : time.second = time'.second := by omega
  have nanosecondEq : time.nanosecond = time'.nanosecond := by omega
  obtain ⟨second, nanosecond, _, _⟩ := time
  obtain ⟨second', nanosecond', _, _⟩ := time'
  simp only at secondEq nanosecondEq
  subst secondEq nanosecondEq
  rfl

/-! ### Days -/

private theorem yearText_injective {year year' : Int} (same : yearText year = yearText year') :
    year = year' := by
  have noSign (n : Nat) (sign : Char) (isSign : sign.isDigit = false) (rest : List Char) :
      paddedDigits 4 n ≠ sign :: rest := by
    intro equal
    have digit : sign.isDigit = true :=
      isDigit_of_mem_paddedDigits (n := n) (equal ▸ List.mem_cons_self)
    rw [isSign] at digit
    cases digit
  have signs (year : Int) : (if year < 0 then '-' else '+').isDigit = false := by
    split <;> rfl
  unfold yearText at same
  by_cases within : (decide (0 ≤ year) && decide (year ≤ 9999)) = true
  · by_cases within' : (decide (0 ≤ year') && decide (year' ≤ 9999)) = true
    · rw [if_pos within, if_pos within'] at same
      have numbers := paddedDigits_injective same
      simp only [Bool.and_eq_true, decide_eq_true_eq] at within within'
      omega
    · rw [if_pos within, if_neg within'] at same
      exact absurd same (noSign _ _ (signs _) _)
  · by_cases within' : (decide (0 ≤ year') && decide (year' ≤ 9999)) = true
    · rw [if_neg within, if_pos within'] at same
      exact absurd same.symm (noSign _ _ (signs _) _)
    · rw [if_neg within, if_neg within'] at same
      obtain ⟨sign, digits⟩ := List.cons.inj same
      have numbers := paddedDigits_injective digits
      by_cases negative : year < 0
      · by_cases negative' : year' < 0
        · omega
        · rw [if_pos negative, if_neg negative'] at sign
          cases sign
      · by_cases negative' : year' < 0
        · rw [if_neg negative, if_pos negative'] at sign
          cases sign
        · omega

theorem monthDayFrom_eq {month day month' day' : Nat} {lengths : List Nat}
    (found : monthDayFrom month day lengths = (month', day')) :
    ∃ passed ≤ lengths.length, month' = month + passed ∧ (lengths.take passed).sum + day' = day := by
  induction lengths generalizing month day with
  | nil =>
      cases found
      exact ⟨0, Nat.le_refl _, rfl, Nat.zero_add _⟩
  | cons length rest ih =>
      rw [monthDayFrom] at found
      split at found
      · cases found
        exact ⟨0, Nat.zero_le _, rfl, Nat.zero_add _⟩
      · obtain ⟨passed, within, monthEq, sumEq⟩ := ih found
        refine ⟨passed + 1, ?_, by omega, ?_⟩
        · rw [List.length_cons]
          omega
        · rw [List.take_succ_cons, List.sum_cons]
          omega

private theorem monthDayFrom_le {month day bound : Nat} {lengths : List Nat}
    (lengths_le : ∀ length ∈ lengths, length ≤ bound) (within : day ≤ lengths.sum) :
    (monthDayFrom month day lengths).2 ≤ bound := by
  induction lengths generalizing month day with
  | nil =>
      rw [List.sum_nil] at within
      rw [monthDayFrom]
      omega
  | cons length rest ih =>
      rw [List.sum_cons] at within
      have first := lengths_le length List.mem_cons_self
      rw [monthDayFrom]
      split
      · rename_i here
        exact Nat.le_trans here first
      · exact ih (fun other member => lengths_le other (List.mem_cons_of_mem _ member)) (by omega)

theorem sum_monthLengths (year : Int) : (monthLengths year).sum = yearLength year := by
  unfold monthLengths yearLength
  cases isLeap year <;> rfl

theorem Date.month_le (date : Date) : date.month ≤ 13 := by
  obtain ⟨passed, within, monthEq, _⟩ := monthDayFrom_eq
    (show monthDayFrom 1 date.ordinal (monthLengths date.year) = (date.month, date.day) from rfl)
  have twelve : (monthLengths date.year).length = 12 := rfl
  omega

theorem Date.day_le (date : Date) : date.day ≤ 31 := by
  refine monthDayFrom_le ?_ ?_
  · intro length member
    unfold monthLengths at member
    cases leap : isLeap date.year <;> simp [leap] at member <;> omega
  · rw [sum_monthLengths]
    exact date.ordinal_le

theorem Date.text_injective {date date' : Date} (same : date.text = date'.text) : date = date' := by
  have monthShort : date.month < 100 := Nat.lt_of_le_of_lt date.month_le (by decide)
  have monthShort' : date'.month < 100 := Nat.lt_of_le_of_lt date'.month_le (by decide)
  have dayShort : date.day < 100 := Nat.lt_of_le_of_lt date.day_le (by decide)
  have dayShort' : date'.day < 100 := Nat.lt_of_le_of_lt date'.day_le (by decide)
  unfold Date.text at same
  simp only [List.append_assoc, List.cons_append] at same
  -- A year may be of any length, but what is behind it has always the same.
  obtain ⟨years, same⟩ := List.append_inj' same
    (by simp only [List.length_cons, List.length_append, length_twoDigits monthShort,
          length_twoDigits dayShort, length_twoDigits monthShort', length_twoDigits dayShort'])
  obtain ⟨months, same⟩ := List.append_inj (List.cons.inj same).2
    (by rw [length_twoDigits monthShort, length_twoDigits monthShort'])
  have yearEq := yearText_injective years
  have monthEq := paddedDigits_injective months
  have dayEq := paddedDigits_injective (List.cons.inj same).2
  obtain ⟨passed, _, monthIs, sumEq⟩ := monthDayFrom_eq
    (show monthDayFrom 1 date.ordinal (monthLengths date.year) = (date.month, date.day) from rfl)
  obtain ⟨passed', _, monthIs', sumEq'⟩ := monthDayFrom_eq
    (show monthDayFrom 1 date'.ordinal (monthLengths date'.year) = (date'.month, date'.day) from rfl)
  have passedEq : passed = passed' := by omega
  rw [yearEq, passedEq, dayEq, sumEq'] at sumEq
  obtain ⟨year, ordinal, _, _, _, _⟩ := date
  obtain ⟨year', ordinal', _, _, _, _⟩ := date'
  simp only at yearEq sumEq
  subst yearEq sumEq
  rfl

theorem Date.blank_not_mem_text (date : Date) : ' ' ∉ date.text := by
  have digits (width n : Nat) : ' ' ∉ paddedDigits width n := by
    intro member
    have digit := isDigit_of_mem_paddedDigits member
    cases digit
  have year : ' ' ∉ yearText date.year := by
    unfold yearText
    split
    · exact digits _ _
    · rw [List.mem_cons, not_or]
      refine ⟨?_, digits _ _⟩
      split <;> decide
  simp [Date.text, digits, year]

/-- No two moments have one text. -/
theorem DateTime.text_injective {moment moment' : DateTime} (regular : moment.time.Regular)
    (regular' : moment'.time.Regular) (same : moment.text = moment'.text) : moment = moment' := by
  have chars := congrArg String.toList same
  rw [DateTime.text, DateTime.text, String.toList_ofList, String.toList_ofList] at chars
  obtain ⟨dates, times⟩ := append_mark_inj moment.date.blank_not_mem_text
    moment'.date.blank_not_mem_text chars
  obtain ⟨date, time⟩ := moment
  obtain ⟨date', time'⟩ := moment'
  rw [DateTime.mk.injEq]
  exact ⟨Date.text_injective dates, TimeOfDay.text_injective regular regular' times⟩

end Trellis.Calendar
