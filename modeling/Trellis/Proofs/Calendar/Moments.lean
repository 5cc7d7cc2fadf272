import Mathlib.Data.List.Induction
import Mathlib.Data.List.TakeWhile
import Trellis.Calendar.Reading
import Trellis.Proofs.Calendar.Texts

/-!
Moments that are read.

What a text gives for the fields of a date is in range, and so a moment that is read has a fraction
beyond a whole second only in a leap second, which is the last one of its minute.
-/

namespace Trellis.Calendar

/-! ### Fields in range -/

/-- The numbers that a text may give for a field, where these matter for the time of day. -/
def Slot.Admits : Slot → Int → Prop
  | .half, value => 0 ≤ value ∧ value < 2
  | .hourOfHalf, value => 0 ≤ value ∧ value < 12
  | .minute, value => 0 ≤ value ∧ value < 60
  | .second, value => 0 ≤ value ∧ value ≤ 60
  | .nanosecond, value => 0 ≤ value ∧ value < nanosecondsPerSecond
  | _, _ => True

def Fields.InRange (fields : Fields) : Prop :=
  ∀ slot value, fields.get? slot = some value → slot.Admits value

theorem Fields.InRange.nil : Fields.InRange [] :=
  fun _ _ found => nomatch found

theorem Fields.get?_put? {fields more : Fields} {slot other : Slot} {value bound : Int}
    (put : fields.put? slot value = some more) :
    more.get? other = some bound ↔ fields.get? other = some bound ∨ (other, bound) = (slot, value) := by
  rw [Prod.mk.injEq]
  unfold Fields.put? at put
  split at put
  · rename_i free
    cases put
    rw [OrderedMap.get?_set]
    split
    · rename_i same
      subst same
      rw [free, Option.some.injEq]
      constructor
      · rintro rfl
        exact .inr ⟨rfl, rfl⟩
      · rintro (earlier | ⟨_, rfl⟩)
        · cases earlier
        · rfl
    · rename_i different
      constructor
      · exact .inl
      · rintro (earlier | ⟨rfl, _⟩)
        · exact earlier
        · exact absurd rfl different
  · rename_i given givenEq
    split at put
    · rename_i same
      cases put
      constructor
      · exact .inl
      · rintro (earlier | ⟨rfl, rfl⟩)
        · exact earlier
        · rw [givenEq, same]
    · cases put

theorem Fields.get?_putAll? {fields more : Fields} {given : List (Slot × Int)} {slot : Slot} {value : Int}
    (put : fields.putAll? given = some more) :
    more.get? slot = some value ↔ fields.get? slot = some value ∨ (slot, value) ∈ given := by
  unfold Fields.putAll? at put
  induction given generalizing fields with
  | nil =>
      cases put
      simp
  | cons entry rest ih =>
      rw [List.foldlM_cons] at put
      obtain ⟨middle, first, later⟩ := Option.bind_eq_some_iff.1 put
      rw [ih later, Fields.get?_put? first, List.mem_cons, or_assoc]

theorem Fields.InRange.put? {fields more : Fields} {slot : Slot} {value : Int}
    (inRange : fields.InRange) (put : fields.put? slot value = some more)
    (admits : slot.Admits value) : more.InRange := by
  intro other bound found
  rcases (Fields.get?_put? put).1 found with before | here
  · exact inRange other bound before
  · cases here
    exact admits

theorem Fields.InRange.putAll? {fields more : Fields} {given : List (Slot × Int)}
    (inRange : fields.InRange) (admits : ∀ entry ∈ given, entry.1.Admits entry.2)
    (put : fields.putAll? given = some more) : more.InRange := by
  intro slot value found
  rcases (Fields.get?_putAll? put).1 found with before | here
  · exact inRange slot value before
  · exact admits (slot, value) here

/-! ### Patterns -/

def Item.isSized : Item → Bool
  | .fractionAfterPoint digits => digits ≤ 9
  | .fractionDigits digits => digits ≤ 9
  | _ => true

def Expecting.isSized : Pattern.Expecting → Bool
  | .fractionEnd digits _ => digits ≤ 9
  | _ => true

private theorem ofLetter?_sized {c : Char} {pattern : Pattern}
    (found : Pattern.ofLetter? c = some pattern) :
    pattern.all Item.isSized = true := by
  unfold Pattern.ofLetter? at found
  split at found <;> cases found <;> rfl

private theorem fractionWidth?_le {c : Char} {digits : Nat}
    (found : Pattern.fractionWidth? c = some digits) :
    digits ≤ 9 := by
  unfold Pattern.fractionWidth? at found
  split at found <;> cases found <;> decide

private theorem step?_sized {expecting next : Pattern.Expecting} {c : Char} {items : Pattern}
    (sized : Expecting.isSized expecting = true) (steps : expecting.step? c = some (items, next)) :
    items.all Item.isSized = true ∧ Expecting.isSized next = true := by
  cases expecting with
  | anything =>
      simp only [Pattern.Expecting.step?] at steps
      split at steps
      · cases steps
        exact ⟨rfl, rfl⟩
      · split at steps <;> cases steps <;> exact ⟨rfl, rfl⟩
  | specifier =>
      simp only [Pattern.Expecting.step?] at steps
      split at steps
      · cases steps
        exact ⟨rfl, rfl⟩
      · split at steps
        · cases steps
          exact ⟨rfl, rfl⟩
        · split at steps
          · cases steps
            exact ⟨rfl, rfl⟩
          · split at steps
            · cases steps
              exact ⟨rfl, rfl⟩
            · split at steps
              · rename_i digits widthEq
                cases steps
                exact ⟨rfl, decide_eq_true (fractionWidth?_le widthEq)⟩
              · obtain ⟨pattern, letterEq, same⟩ := Option.map_eq_some_iff.1 steps
                cases same
                exact ⟨ofLetter?_sized letterEq, rfl⟩
  | filled =>
      simp only [Pattern.Expecting.step?] at steps
      split at steps <;> cases steps
      exact ⟨rfl, rfl⟩
  | alternate =>
      simp only [Pattern.Expecting.step?] at steps
      split at steps <;> cases steps
      exact ⟨rfl, rfl⟩
  | pointed =>
      simp only [Pattern.Expecting.step?] at steps
      split at steps
      · cases steps
        exact ⟨rfl, rfl⟩
      · obtain ⟨digits, widthEq, same⟩ := Option.map_eq_some_iff.1 steps
        cases same
        exact ⟨rfl, decide_eq_true (fractionWidth?_le widthEq)⟩
  | fractionEnd digits hasPoint =>
      simp only [Pattern.Expecting.step?] at steps
      split at steps <;> cases steps
      refine ⟨?_, rfl⟩
      rw [List.all_cons, List.all_nil, Bool.and_true]
      cases hasPoint <;> exact sized
  | offsetEnd colons =>
      simp only [Pattern.Expecting.step?] at steps
      split at steps
      · cases steps
        exact ⟨rfl, rfl⟩
      · split at steps <;> cases steps
        exact ⟨rfl, rfl⟩

private theorem read?_sized {text : String} {pattern : Pattern}
    (found : Pattern.read? text = some pattern) :
    pattern.all Item.isSized = true := by
  have onward (chars : List Char) (expecting : Pattern.Expecting)
      (sized : Expecting.isSized expecting = true) (pattern : Pattern)
      (found : Pattern.readFrom? expecting chars = some pattern) :
      pattern.all Item.isSized = true := by
    induction chars generalizing expecting pattern with
    | nil =>
        rw [Pattern.readFrom?] at found
        split at found <;> cases found
        rfl
    | cons c rest ih =>
        obtain ⟨⟨items, next⟩, steps, goesOn⟩ := Option.bind_eq_some_iff.1 found
        obtain ⟨later, laterEq, ends⟩ := Option.bind_eq_some_iff.1 goesOn
        cases ends
        obtain ⟨here, nextSized⟩ := step?_sized sized steps
        rw [List.all_append, here, ih next nextSized later laterEq, Bool.and_true]
  exact onward text.toList .anything rfl pattern found

/-! ### Items -/

private theorem ofDigitChars_lt {digits : List Char} (areDigits : ∀ c ∈ digits, c.isDigit = true) :
    Nat.ofDigitChars 10 digits 0 < 10 ^ digits.length := by
  induction digits using List.reverseRecOn with
  | nil => decide
  | append_singleton front last ih =>
      have digit := areDigits last (List.mem_append_right _ List.mem_cons_self)
      have earlier := ih fun c member => areDigits c (List.mem_append_left _ member)
      simp only [Char.isDigit, Bool.and_eq_true, decide_eq_true_eq] at digit
      have greatest : last.toNat ≤ 57 := digit.2
      have zero : '0'.toNat = 48 := rfl
      rw [Nat.ofDigitChars_append, Nat.ofDigitChars_cons, Nat.ofDigitChars_nil, List.length_append,
        List.length_singleton, Nat.pow_succ, zero]
      omega

private theorem takeNumber?_lt {width value : Nat} {text rest : List Char}
    (taken : takeNumber? (some width) text = some (value, rest)) :
    text.length - rest.length ≤ width ∧ value < 10 ^ (text.length - rest.length) := by
  unfold takeNumber? at taken
  simp only at taken
  split at taken
  · cases taken
  · simp only [Option.some.injEq, Prod.mk.injEq] at taken
    obtain ⟨valueEq, restEq⟩ := taken
    generalize digitsEq : (text.takeWhile Char.isDigit).take width = digits at valueEq restEq
    have areDigits (c : Char) (member : c ∈ digits) : c.isDigit = true := by
      rw [← digitsEq] at member
      exact List.mem_takeWhile_imp (List.mem_of_mem_take member)
    have short : digits.length ≤ width := by
      rw [← digitsEq, List.length_take]
      exact Nat.min_le_left _ _
    have within : digits.length ≤ text.length := by
      rw [← digitsEq, List.length_take]
      exact Nat.le_trans (Nat.min_le_right _ _) (List.takeWhile_prefix _).length_le
    have count : text.length - rest.length = digits.length := by
      rw [← restEq, List.length_drop]
      omega
    rw [count, ← valueEq]
    exact ⟨short, ofDigitChars_lt areDigits⟩

private theorem nanosecondsOf_admits {value digits : Nat} (within : digits ≤ 9)
    (less : value < 10 ^ digits) :
    Slot.nanosecond.Admits (nanosecondsOf value digits) := by
  have product : value * 10 ^ (9 - digits) < 10 ^ digits * 10 ^ (9 - digits) :=
    Nat.mul_lt_mul_of_pos_right less (Nat.pow_pos (by decide))
  rw [← Nat.pow_add, Nat.add_sub_cancel' within] at product
  exact ⟨Int.natCast_nonneg _, Int.ofNat_lt.2 product⟩

private theorem slots_admit {part : Part} {value : Int} (admits : part.admits value = true)
    (short : part = .nanosecond → Slot.nanosecond.Admits value) :
    ∀ entry ∈ part.slots value, entry.1.Admits entry.2 := by
  cases part with
  | hour =>
      simp only [Part.admits, Part.bounds?, Bool.and_eq_true, decide_eq_true_eq] at admits
      simp only [Part.slots, List.forall_mem_cons, Slot.Admits]
      exact ⟨by omega, by omega, nofun⟩
  | hourOfHalf =>
      simp only [Part.slots, List.forall_mem_cons, Slot.Admits]
      exact ⟨by omega, nofun⟩
  | minute =>
      simp only [Part.admits, Part.bounds?, Bool.and_eq_true, decide_eq_true_eq] at admits
      simp only [Part.slots, List.forall_mem_cons, Slot.Admits]
      exact ⟨by omega, nofun⟩
  | second =>
      simp only [Part.admits, Part.bounds?, Bool.and_eq_true, decide_eq_true_eq] at admits
      simp only [Part.slots, List.forall_mem_cons, Slot.Admits]
      exact ⟨admits, nofun⟩
  | nanosecond =>
      simp only [Part.slots, List.forall_mem_cons]
      exact ⟨short rfl, nofun⟩
  | _ =>
      simp only [Part.slots, List.forall_mem_cons, Slot.Admits]
      exact ⟨trivial, nofun⟩

private theorem nanosecond_take?_admits {text rest : List Char} {value : Int}
    (taken : Part.nanosecond.take? text = some (value, rest)) : Slot.nanosecond.Admits value := by
  unfold Part.take? at taken
  simp only [Part.isSigned, Part.width?] at taken
  obtain ⟨⟨number, after⟩, numberEq, same⟩ := Option.map_eq_some_iff.1 taken
  cases same
  obtain ⟨short, less⟩ := takeNumber?_lt numberEq
  have bound : number < 10 ^ 9 := Nat.lt_of_lt_of_le less (Nat.pow_le_pow_right (by decide) short)
  exact ⟨Int.natCast_nonneg _, Int.ofNat_lt.2 bound⟩

private theorem takeFractionDigits?_admits {digits : Nat} {text rest : List Char} {value : Int}
    (within : digits ≤ 9) (taken : takeFractionDigits? digits text = some (value, rest)) :
    Slot.nanosecond.Admits value := by
  obtain ⟨⟨number, after⟩, numberEq, goesOn⟩ := Option.bind_eq_some_iff.1 taken
  simp only at goesOn
  split at goesOn
  · rename_i count
    cases goesOn
    obtain ⟨_, less⟩ := takeNumber?_lt numberEq
    rw [count] at less
    exact nanosecondsOf_admits within less
  · cases goesOn

private theorem takeFraction?_admits {text rest : List Char} {value : Int}
    (taken : takeFraction? text = some (value, rest)) : Slot.nanosecond.Admits value := by
  obtain ⟨⟨number, after⟩, numberEq, ends⟩ := Option.bind_eq_some_iff.1 taken
  cases ends
  obtain ⟨short, less⟩ := takeNumber?_lt numberEq
  exact nanosecondsOf_admits short less

theorem Item.take?_admits {item : Item} {text rest : List Char} {given : List (Slot × Int)}
    (sized : item.isSized = true) (taken : item.take? text = some (given, rest)) :
    ∀ entry ∈ given, entry.1.Admits entry.2 := by
  have none : ∀ entry ∈ ([] : List (Slot × Int)), entry.1.Admits entry.2 := nofun
  have one {slot : Slot} {value : Int} (admits : slot.Admits value) :
      ∀ entry ∈ [(slot, value)], entry.1.Admits entry.2 :=
    List.forall_mem_singleton.2 admits
  cases item with
  | literal c =>
      obtain ⟨_, _, same⟩ := Option.map_eq_some_iff.1 taken
      cases same
      exact none
  | blanks =>
      cases taken
      exact none
  | number part =>
      simp only [Item.take?] at taken
      split at taken
      · rename_i value after valueEq
        split at taken
        · rename_i admits
          cases taken
          refine slots_admit admits ?_
          rintro rfl
          exact nanosecond_take?_admits valueEq
        · cases taken
      · cases taken
  | monthName long =>
      obtain ⟨_, _, same⟩ := Option.map_eq_some_iff.1 taken
      cases same
      exact one trivial
  | weekdayName long =>
      obtain ⟨_, _, same⟩ := Option.map_eq_some_iff.1 taken
      cases same
      exact one trivial
  | half =>
      simp only [Item.take?] at taken
      split at taken
      · cases taken
        exact one (show (0 : Int) ≤ 0 ∧ (0 : Int) < 2 by decide)
      · cases taken
        exact one (show (0 : Int) ≤ 1 ∧ (1 : Int) < 2 by decide)
      · cases taken
  | fraction =>
      simp only [Item.take?] at taken
      split at taken
      · obtain ⟨⟨value, after⟩, valueEq, same⟩ := Option.map_eq_some_iff.1 taken
        cases same
        exact one (takeFraction?_admits valueEq)
      · cases taken
        exact none
  | fractionAfterPoint digits =>
      simp only [Item.take?] at taken
      split at taken
      · obtain ⟨⟨value, after⟩, valueEq, same⟩ := Option.map_eq_some_iff.1 taken
        cases same
        exact one (takeFractionDigits?_admits (of_decide_eq_true sized) valueEq)
      · cases taken
        exact none
  | fractionDigits digits =>
      obtain ⟨⟨value, after⟩, valueEq, same⟩ := Option.map_eq_some_iff.1 taken
      cases same
      exact one (takeFractionDigits?_admits (of_decide_eq_true sized) valueEq)
  | zoneName =>
      cases taken
      exact none
  | offset zulu minutesOptional =>
      obtain ⟨_, _, same⟩ := Option.map_eq_some_iff.1 taken
      cases same
      exact one trivial
  | timeMark =>
      simp only [Item.take?] at taken
      split at taken
      · split at taken <;> cases taken
        exact none
      · cases taken
  | universalOffset =>
      simp only [Item.take?] at taken
      split at taken
      · cases taken
        exact one trivial
      · obtain ⟨_, _, same⟩ := Option.map_eq_some_iff.1 taken
        cases same
        exact one trivial

theorem Pattern.take?_inRange {pattern : Pattern} {text rest : List Char} {fields fields' : Fields}
    (sized : pattern.all Item.isSized = true) (inRange : fields.InRange)
    (taken : pattern.take? (text, fields) = some (rest, fields')) : fields'.InRange := by
  induction pattern generalizing text fields with
  | nil =>
      cases taken
      exact inRange
  | cons item items ih =>
      obtain ⟨here, later⟩ := Bool.and_eq_true_iff.1 sized
      obtain ⟨⟨given, after⟩, givenEq, taken⟩ := Option.bind_eq_some_iff.1 taken
      obtain ⟨between, putEq, taken⟩ := Option.bind_eq_some_iff.1 taken
      exact ih later (inRange.putAll? (Item.take?_admits here givenEq) putEq) taken

theorem Pattern.take?_of_fields? {items : Pattern} {text : String} {fields : Fields}
    (found : items.fields? text = some fields) : items.take? (text.toList, []) = some ([], fields) := by
  unfold Pattern.fields? at found
  split at found
  · rename_i taken
    cases found
    exact taken
  · cases found

theorem Pattern.fields?_inRange {items : Pattern} {text pattern : String} {fields : Fields}
    (itemsEq : Pattern.read? pattern = some items) (found : items.fields? text = some fields) :
    fields.InRange :=
  Pattern.take?_inRange (read?_sized itemsEq) .nil (Pattern.take?_of_fields? found)

/-! ### Moments -/

theorem TimeOfDay.of?_eq_some {second nanosecond : Nat} {time : TimeOfDay}
    (found : TimeOfDay.of? second nanosecond = some time) :
    time.second = second ∧ time.nanosecond = nanosecond := by
  unfold TimeOfDay.of? at found
  split at found
  · cases found
    exact ⟨rfl, rfl⟩
  · cases found

theorem Fields.time_regular {fields : Fields} {time : TimeOfDay} (inRange : fields.InRange)
    (found : fields.time = .ok time) : time.Regular := by
  unfold Fields.time at found
  split at found
  · rename_i half hour minute halfEq hourEq minuteEq
    have half := inRange .half half halfEq
    have hour := inRange .hourOfHalf hour hourEq
    have minute := inRange .minute minute minuteEq
    simp only [Slot.Admits] at half hour minute
    have short : (fields.get? .nanosecond).getD 0 < nanosecondsPerSecond := by
      cases nanosecondEq : fields.get? .nanosecond with
      | none => exact Int.ofNat_lt.2 (by decide)
      | some nanosecond => exact (inRange .nanosecond nanosecond nanosecondEq).2
    split at found
    · cases found
    · simp only at found
      split at found
      · rename_i given timeEq
        cases found
        obtain ⟨secondEq, nanosecondEq⟩ := TimeOfDay.of?_eq_some timeEq
        intro beyond
        unfold nanosecondsPerSecond at *
        split at nanosecondEq
        · rename_i sixty
          rw [if_pos sixty] at secondEq
          omega
        · omega
      · cases found
  · cases found

/-- A moment by its count has the time of the fields completed from the count. -/
theorem Fields.exists_complete {fields : Fields} {timestamp : Int} {moment : DateTime}
    (inRange : fields.InRange) (found : fields.fromTimestamp? timestamp = some moment) :
    ∃ complete : Fields, complete.InRange ∧ complete.time = .ok moment.time ∧
      ∀ slot value, fields.get? slot = some value → complete.get? slot = some value := by
  have completed (counted : DateTime) (begun : Fields) (begunInRange : begun.InRange)
      (found : (do
        let fields ← begun.put? .year counted.date.year
        let fields ← fields.put? .ordinal counted.date.ordinal
        let fields ← fields.put? .half (counted.time.second / 3600 / 12 : Nat)
        let fields ← fields.put? .hourOfHalf (counted.time.second / 3600 % 12 : Nat)
        let fields ← fields.put? .minute (counted.time.second / 60 % 60 : Nat)
        return { date := ← fields.date.toOption, time := ← fields.time.toOption }) = some moment) :
      ∃ complete : Fields, complete.InRange ∧ complete.time = .ok moment.time ∧
        ∀ slot value, begun.get? slot = some value → complete.get? slot = some value := by
    obtain ⟨_, year, found⟩ := Option.bind_eq_some_iff.1 found
    obtain ⟨_, ordinal, found⟩ := Option.bind_eq_some_iff.1 found
    obtain ⟨_, half, found⟩ := Option.bind_eq_some_iff.1 found
    obtain ⟨_, hour, found⟩ := Option.bind_eq_some_iff.1 found
    obtain ⟨complete, minute, found⟩ := Option.bind_eq_some_iff.1 found
    obtain ⟨_, _, found⟩ := Option.bind_eq_some_iff.1 found
    obtain ⟨time, timeEq, ends⟩ := Option.bind_eq_some_iff.1 found
    cases ends
    have bound := counted.time.second_lt
    unfold secondsPerDay at bound
    have withDay := (begunInRange.put? year trivial).put? ordinal trivial
    have withHalf := withDay.put? half ⟨Int.natCast_nonneg _, by omega⟩
    have withHour := withHalf.put? hour ⟨Int.natCast_nonneg _, by omega⟩
    have completeInRange := withHour.put? minute ⟨Int.natCast_nonneg _, by omega⟩
    refine ⟨complete, completeInRange, ?_, ?_⟩
    · cases outcome : complete.time with
      | error defect =>
          rw [outcome] at timeEq
          cases timeEq
      | ok time' =>
          rw [outcome] at timeEq
          cases timeEq
          rfl
    · intro slot value given
      have given := (Fields.get?_put? ordinal).2 (.inl ((Fields.get?_put? year).2 (.inl given)))
      have given := (Fields.get?_put? hour).2 (.inl ((Fields.get?_put? half).2 (.inl given)))
      exact (Fields.get?_put? minute).2 (.inl given)
  obtain ⟨counted, _, found⟩ := Option.bind_eq_some_iff.1 found
  dsimp only at found
  split at found
  · split at found
    · exact completed counted fields inRange found
    · split at found
      · obtain ⟨⟨earlier, begun⟩, pairEq, found⟩ := Option.bind_eq_some_iff.1 found
        obtain ⟨_, _, same⟩ := Option.map_eq_some_iff.1 pairEq
        cases same
        exact completed earlier fields inRange found
      · cases found
  · obtain ⟨⟨same, begun⟩, pairEq, found⟩ := Option.bind_eq_some_iff.1 found
    obtain ⟨_, second, pairEq⟩ := Option.map_eq_some_iff.1 pairEq
    cases pairEq
    obtain ⟨complete, completeInRange, timeEq, keeps⟩ :=
      completed counted begun (inRange.put? second ⟨Int.natCast_nonneg _, by omega⟩) found
    exact ⟨complete, completeInRange, timeEq, fun slot value given =>
      keeps slot value ((Fields.get?_put? second).2 (.inl given))⟩

theorem Fields.moment?_regular {fields : Fields} {moment : DateTime} (inRange : fields.InRange)
    (found : fields.moment? = some moment) : moment.time.Regular := by
  unfold Fields.moment? at found
  split at found
  · rename_i date time _ timeEq
    split at found
    · cases found
      exact Fields.time_regular inRange timeEq
    · cases found
  · cases found
  · cases found
  · obtain ⟨timestamp, _, found⟩ := Option.bind_eq_some_iff.1 found
    obtain ⟨complete, completeInRange, timeEq, _⟩ := Fields.exists_complete inRange found
    exact Fields.time_regular completeInRange timeEq

private theorem regular_of_short {time : TimeOfDay} (short : time.nanosecond < nanosecondsPerSecond) :
    time.Regular :=
  fun beyond => absurd beyond (Nat.not_le.2 short)

/-- The fraction of a moment that is read reaches beyond a whole second in a leap second only. -/
theorem readMoment?_regular {text pattern : String} {moment : DateTime}
    (found : readMoment? text pattern = some moment) : moment.time.Regular := by
  unfold readMoment? at found
  split at found
  · obtain ⟨number, _, found⟩ := Option.bind_eq_some_iff.1 found
    obtain ⟨date, _, found⟩ := Option.bind_eq_some_iff.1 found
    obtain ⟨time, timeEq, ends⟩ := Option.bind_eq_some_iff.1 found
    cases ends
    obtain ⟨_, nanosecondEq⟩ := TimeOfDay.of?_eq_some timeEq
    refine regular_of_short ?_
    simp only [nanosecondEq, nanosecondsPerSecond]
    omega
  · obtain ⟨items, itemsEq, found⟩ := Option.bind_eq_some_iff.1 found
    obtain ⟨fields, fieldsEq, found⟩ := Option.bind_eq_some_iff.1 found
    have inRange : fields.InRange := Pattern.fields?_inRange itemsEq fieldsEq
    split at found
    · rename_i momentEq
      cases found
      exact Fields.moment?_regular inRange momentEq
    · obtain ⟨date, _, rfl⟩ := Option.map_eq_some_iff.1 found
      exact regular_of_short (show TimeOfDay.midnight.nanosecond < nanosecondsPerSecond by decide)

end Trellis.Calendar
