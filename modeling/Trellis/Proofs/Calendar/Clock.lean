import Trellis.Proofs.Calendar.Moments

/-!
Times of day that are read.

The items of a pattern give fields of the text, one item after the other.  If these make up a whole
time of day, or the text has a count of seconds instead of a day, the moment that is read shows every
one of them.  Else the text may be read once more for its day alone; the time is midnight then, and
whatever the text gives of it is lost.
-/

namespace Trellis.Calendar

/-- The items find the value of a field in the text. -/
inductive Pattern.Gives : Pattern → List Char → Slot → Int → Prop
  | here {item : Item} {items : Pattern} {text rest : List Char} {given : List (Slot × Int)} {slot : Slot}
      {value : Int} (taken : item.take? text = some (given, rest)) (member : (slot, value) ∈ given) :
      Gives (item :: items) text slot value
  | later {item : Item} {items : Pattern} {text rest : List Char} {given : List (Slot × Int)} {slot : Slot}
      {value : Int} (taken : item.take? text = some (given, rest)) (gives : Gives items rest slot value) :
      Gives (item :: items) text slot value

/-- The time of day has the value of the field.  A leap second is second sixty; fields that are not of
the clock say nothing of the time. -/
def TimeOfDay.Shows (time : TimeOfDay) : Slot → Int → Prop
  | .half, value => (time.second / 43200 : Nat) = value
  | .hourOfHalf, value => (time.second / 3600 % 12 : Nat) = value
  | .minute, value => (time.second / 60 % 60 : Nat) = value
  | .second, value => (time.second % 60 + time.nanosecond / nanosecondsPerSecond : Nat) = value
  | .nanosecond, value => (time.nanosecond % nanosecondsPerSecond : Nat) = value
  | _, _ => True

def TimeOfDay.Keeps (time : TimeOfDay) (items : Pattern) (text : String) : Prop :=
  ∀ slot value, items.Gives text.toList slot value → time.Shows slot value

/-- The text gives a whole time of day: half, hour and minute, and the second if there is a fraction
of one. -/
structure Pattern.GivesClock (items : Pattern) (text : String) : Prop where
  half : ∃ value, items.Gives text.toList .half value
  hour : ∃ value, items.Gives text.toList .hourOfHalf value
  minute : ∃ value, items.Gives text.toList .minute value
  second : ∀ fraction, items.Gives text.toList .nanosecond fraction →
    ∃ value, items.Gives text.toList .second value

def Item.slots : Item → List Slot
  | .number part => (part.slots 0).map Prod.fst
  | .monthName _ => [.month]
  | .weekdayName _ => [.weekday]
  | .half => [.half]
  | .fraction | .fractionAfterPoint _ | .fractionDigits _ => [.nanosecond]
  | .offset _ _ | .universalOffset => [.offset]
  | .literal _ | .blanks | .zoneName | .timeMark => []

def Pattern.Names (items : Pattern) (slot : Slot) : Prop :=
  ∃ item ∈ items, slot ∈ item.slots

structure Pattern.NamesClock (items : Pattern) : Prop where
  half : items.Names .half
  hour : items.Names .hourOfHalf
  minute : items.Names .minute
  second : items.Names .nanosecond → items.Names .second

def Pattern.NamesNoYear (items : Pattern) : Prop :=
  ∀ slot ∈ [Slot.year, .yearOfCentury, .isoYear, .isoYearOfCentury], ¬ items.Names slot

instance (items : Pattern) (slot : Slot) : Decidable (items.Names slot) :=
  inferInstanceAs (Decidable (∃ item ∈ items, slot ∈ item.slots))

/-! ### Fields that are given -/

theorem Pattern.get?_take? {items : Pattern} {text rest : List Char} {fields more : Fields} {slot : Slot}
    {value : Int} (taken : items.take? (text, fields) = some (rest, more)) :
    more.get? slot = some value ↔ fields.get? slot = some value ∨ items.Gives text slot value := by
  induction items generalizing text fields with
  | nil =>
      cases taken
      exact ⟨.inl, fun found => found.elim id nofun⟩
  | cons item items ih =>
      obtain ⟨⟨given, after⟩, givenEq, taken⟩ := Option.bind_eq_some_iff.1 taken
      obtain ⟨middle, putEq, taken⟩ := Option.bind_eq_some_iff.1 taken
      rw [ih taken, Fields.get?_putAll? putEq, or_assoc]
      refine or_congr_right ?_
      constructor
      · rintro (member | gives)
        · exact .here givenEq member
        · exact .later givenEq gives
      · intro gives
        cases gives with
        | here taken' member =>
            cases givenEq.symm.trans taken'
            exact .inl member
        | later taken' gives =>
            cases givenEq.symm.trans taken'
            exact .inr gives

theorem Pattern.get?_fields? {items : Pattern} {text : String} {fields : Fields} {slot : Slot} {value : Int}
    (found : items.fields? text = some fields) :
    fields.get? slot = some value ↔ items.Gives text.toList slot value := by
  rw [Pattern.get?_take? (Pattern.take?_of_fields? found), OrderedMap.get?_nil]
  exact ⟨fun given => given.elim nofun id, .inr⟩

/-! ### Fields that are named -/

theorem Part.map_slots (part : Part) (value other : Int) :
    (part.slots value).map Prod.fst = (part.slots other).map Prod.fst := by
  cases part <;> rfl

/-- An item gives all of its fields, save that there may be no fraction where one is allowed. -/
theorem Item.map_take? {item : Item} {text rest : List Char} {given : List (Slot × Int)}
    (taken : item.take? text = some (given, rest)) :
    given.map Prod.fst = item.slots ∨ given = [] ∧ item.slots = [.nanosecond] := by
  cases item with
  | literal c =>
      obtain ⟨_, _, same⟩ := Option.map_eq_some_iff.1 taken
      cases same
      exact .inl rfl
  | blanks =>
      cases taken
      exact .inl rfl
  | number part =>
      simp only [Item.take?] at taken
      split at taken
      · split at taken <;> cases taken
        exact .inl (part.map_slots _ _)
      · cases taken
  | monthName long =>
      obtain ⟨_, _, same⟩ := Option.map_eq_some_iff.1 taken
      cases same
      exact .inl rfl
  | weekdayName long =>
      obtain ⟨_, _, same⟩ := Option.map_eq_some_iff.1 taken
      cases same
      exact .inl rfl
  | half =>
      simp only [Item.take?] at taken
      split at taken <;> cases taken <;> exact .inl rfl
  | fraction =>
      simp only [Item.take?] at taken
      split at taken
      · obtain ⟨_, _, same⟩ := Option.map_eq_some_iff.1 taken
        cases same
        exact .inl rfl
      · cases taken
        exact .inr ⟨rfl, rfl⟩
  | fractionAfterPoint digits =>
      simp only [Item.take?] at taken
      split at taken
      · obtain ⟨_, _, same⟩ := Option.map_eq_some_iff.1 taken
        cases same
        exact .inl rfl
      · cases taken
        exact .inr ⟨rfl, rfl⟩
  | fractionDigits digits =>
      obtain ⟨_, _, same⟩ := Option.map_eq_some_iff.1 taken
      cases same
      exact .inl rfl
  | zoneName =>
      cases taken
      exact .inl rfl
  | offset zulu minutesOptional =>
      obtain ⟨_, _, same⟩ := Option.map_eq_some_iff.1 taken
      cases same
      exact .inl rfl
  | timeMark =>
      simp only [Item.take?] at taken
      split at taken
      · split at taken <;> cases taken
        exact .inl rfl
      · cases taken
  | universalOffset =>
      simp only [Item.take?] at taken
      split at taken
      · cases taken
        exact .inl rfl
      · obtain ⟨_, _, same⟩ := Option.map_eq_some_iff.1 taken
        cases same
        exact .inl rfl

theorem Pattern.Gives.names {items : Pattern} {text : List Char} {slot : Slot} {value : Int}
    (gives : items.Gives text slot value) : items.Names slot := by
  induction gives with
  | here taken member =>
      refine ⟨_, List.mem_cons_self, ?_⟩
      rcases Item.map_take? taken with all | ⟨none, _⟩
      · rw [← all]
        exact List.mem_map_of_mem member
      · rw [none] at member
        cases member
  | later taken gives ih =>
      obtain ⟨item, member, named⟩ := ih
      exact ⟨item, List.mem_cons_of_mem _ member, named⟩

theorem Pattern.Names.exists_gives {items : Pattern} {text rest : List Char} {fields more : Fields}
    {slot : Slot} (names : items.Names slot) (noFraction : slot ≠ .nanosecond)
    (taken : items.take? (text, fields) = some (rest, more)) :
    ∃ value, items.Gives text slot value := by
  obtain ⟨named, member, slotNamed⟩ := names
  induction items generalizing text fields with
  | nil => cases member
  | cons item items ih =>
      obtain ⟨⟨given, after⟩, givenEq, taken⟩ := Option.bind_eq_some_iff.1 taken
      obtain ⟨middle, _, taken⟩ := Option.bind_eq_some_iff.1 taken
      rcases List.mem_cons.1 member with rfl | member
      · rcases Item.map_take? givenEq with all | ⟨_, fraction⟩
        · rw [← all] at slotNamed
          obtain ⟨⟨_, value⟩, valueGiven, rfl⟩ := List.mem_map.1 slotNamed
          exact ⟨value, .here givenEq valueGiven⟩
        · rw [fraction, List.mem_singleton] at slotNamed
          exact absurd slotNamed noFraction
      · obtain ⟨value, gives⟩ := ih taken member
        exact ⟨value, .later givenEq gives⟩

theorem Pattern.NamesClock.givesClock {items : Pattern} {text : String} {fields : Fields}
    (names : items.NamesClock) (found : items.fields? text = some fields) : items.GivesClock text := by
  have taken := Pattern.take?_of_fields? found
  exact {
    half := names.half.exists_gives nofun taken
    hour := names.hour.exists_gives nofun taken
    minute := names.minute.exists_gives nofun taken
    second := fun _ gives => (names.second gives.names).exists_gives nofun taken }

/-! ### Times of day -/

def Fields.HasClock (fields : Fields) : Prop :=
  (∃ value, fields.get? .half = some value) ∧ (∃ value, fields.get? .hourOfHalf = some value) ∧
    (∃ value, fields.get? .minute = some value) ∧
    ∀ fraction, fields.get? .nanosecond = some fraction → ∃ value, fields.get? .second = some value

theorem Fields.hasClock_iff {items : Pattern} {text : String} {fields : Fields}
    (found : items.fields? text = some fields) : fields.HasClock ↔ items.GivesClock text := by
  simp only [HasClock, Pattern.get?_fields? found]
  constructor
  · rintro ⟨half, hour, minute, second⟩
    exact ⟨half, hour, minute, second⟩
  · rintro ⟨half, hour, minute, second⟩
    exact ⟨half, hour, minute, second⟩

theorem TimeOfDay.exists_of_clock {half hour minute second nanosecond : Int}
    (halfAdmits : Slot.half.Admits half) (hourAdmits : Slot.hourOfHalf.Admits hour)
    (minuteAdmits : Slot.minute.Admits minute) (secondAdmits : Slot.second.Admits second)
    (nanosecondAdmits : Slot.nanosecond.Admits nanosecond) {clock : Int × Int}
    (clockEq : clock = if second = 60 then (59, nanosecond + nanosecondsPerSecond) else (second, nanosecond)) :
    ∃ time : TimeOfDay,
      TimeOfDay.of? (((half * 12 + hour) * 60 + minute) * 60 + clock.1).toNat clock.2.toNat = some time ∧
        time.Shows .half half ∧ time.Shows .hourOfHalf hour ∧ time.Shows .minute minute ∧
        time.Shows .second second ∧ time.Shows .nanosecond nanosecond := by
  simp only [Slot.Admits, nanosecondsPerSecond] at *
  have within : 0 ≤ clock.1 ∧ clock.1 < 60 ∧ 0 ≤ clock.2 ∧ clock.2 < 2000000000 ∧
      clock.1 + clock.2 / 1000000000 = second ∧ clock.2 % 1000000000 = nanosecond := by
    rw [clockEq]
    split
    · simp only
      omega
    · simp only
      omega
  have second_lt : (((half * 12 + hour) * 60 + minute) * 60 + clock.1).toNat < secondsPerDay := by
    rw [secondsPerDay]
    omega
  have nanosecond_lt : clock.2.toNat < 2 * nanosecondsPerSecond := by
    rw [nanosecondsPerSecond]
    omega
  refine ⟨⟨_, _, second_lt, nanosecond_lt⟩, dif_pos ⟨second_lt, nanosecond_lt⟩, ?_⟩
  simp only [Shows, nanosecondsPerSecond]
  omega

theorem Fields.time_of_hasClock {fields : Fields} (inRange : fields.InRange) (clock : fields.HasClock) :
    ∃ time, fields.time = .ok time ∧
      ∀ slot value, fields.get? slot = some value → time.Shows slot value := by
  obtain ⟨⟨half, halfEq⟩, ⟨hour, hourEq⟩, ⟨minute, minuteEq⟩, secondGiven⟩ := clock
  have secondAdmits : Slot.second.Admits ((fields.get? .second).getD 0) := by
    cases secondEq : fields.get? .second with
    | none => exact show (0 : Int) ≤ 0 ∧ (0 : Int) ≤ 60 by decide
    | some second => exact inRange .second second secondEq
  have nanosecondAdmits : Slot.nanosecond.Admits ((fields.get? .nanosecond).getD 0) := by
    cases nanosecondEq : fields.get? .nanosecond with
    | none => exact show (0 : Int) ≤ 0 ∧ (0 : Int) < nanosecondsPerSecond by decide
    | some nanosecond => exact inRange .nanosecond nanosecond nanosecondEq
  have complete : (fields.contains .nanosecond && !fields.contains .second) = false := by
    rw [OrderedMap.contains, OrderedMap.contains]
    cases nanosecondEq : fields.get? .nanosecond with
    | none => rfl
    | some fraction =>
        obtain ⟨second, secondEq⟩ := secondGiven fraction nanosecondEq
        rw [secondEq]
        rfl
  obtain ⟨time, timeEq, showsHalf, showsHour, showsMinute, showsSecond, showsNanosecond⟩ :=
    TimeOfDay.exists_of_clock (inRange .half half halfEq) (inRange .hourOfHalf hour hourEq)
      (inRange .minute minute minuteEq) secondAdmits nanosecondAdmits rfl
  refine ⟨time, ?_, ?_⟩
  · rw [Fields.time, halfEq, hourEq, minuteEq]
    simp only [complete, Bool.false_eq_true, if_false, timeEq]
  · intro slot value given
    cases slot with
    | half => exact (Option.some.inj (halfEq.symm.trans given)) ▸ showsHalf
    | hourOfHalf => exact (Option.some.inj (hourEq.symm.trans given)) ▸ showsHour
    | minute => exact (Option.some.inj (minuteEq.symm.trans given)) ▸ showsMinute
    | second =>
        rw [given] at showsSecond
        exact showsSecond
    | nanosecond =>
        rw [given] at showsNanosecond
        exact showsNanosecond
    | _ => exact trivial

theorem Fields.time_of_not_hasClock {fields : Fields} (lacks : ¬ fields.HasClock) :
    fields.time = .error .insufficient := by
  unfold Fields.time
  split
  · rename_i half hour minute halfEq hourEq minuteEq
    have noSecond : (fields.contains .nanosecond && !fields.contains .second) = true := by
      by_contra complete
      refine lacks ⟨⟨half, halfEq⟩, ⟨hour, hourEq⟩, ⟨minute, minuteEq⟩, ?_⟩
      intro fraction fractionEq
      rw [OrderedMap.contains, OrderedMap.contains, fractionEq] at complete
      exact Option.ne_none_iff_exists'.1 (by simpa using complete)
    simp only [noSecond, if_true]
  · rfl

/-! ### Moments -/

theorem Fields.shows_of_time {fields : Fields} {time : TimeOfDay} (inRange : fields.InRange)
    (timeEq : fields.time = .ok time) :
    ∀ slot value, fields.get? slot = some value → time.Shows slot value := by
  by_cases clock : fields.HasClock
  · obtain ⟨found, foundEq, shows⟩ := Fields.time_of_hasClock inRange clock
    cases foundEq.symm.trans timeEq
    exact shows
  · cases (Fields.time_of_not_hasClock clock).symm.trans timeEq

theorem Fields.shows_of_moment? {fields : Fields} {moment : DateTime} (inRange : fields.InRange)
    (found : fields.moment? = some moment) :
    ∀ slot value, fields.get? slot = some value → moment.time.Shows slot value := by
  unfold Fields.moment? at found
  split at found
  · rename_i date time _ timeEq
    split at found <;> cases found
    exact Fields.shows_of_time inRange timeEq
  · cases found
  · cases found
  · obtain ⟨timestamp, _, found⟩ := Option.bind_eq_some_iff.1 found
    obtain ⟨complete, completeInRange, timeEq, keeps⟩ := Fields.exists_complete inRange found
    intro slot value given
    exact Fields.shows_of_time completeInRange timeEq slot value (keeps slot value given)

theorem Fields.moment?_of_no_timestamp {fields : Fields} (none : fields.get? .timestamp = none) :
    fields.moment? = fields.date.toOption.bind fun date =>
      fields.time.toOption.map fun time => ⟨date, time⟩ := by
  unfold Fields.moment?
  cases dateEq : fields.date with
  | ok date =>
      cases timeEq : fields.time with
      | ok time =>
          simp only [agreesOnTimestamp, none]
          rfl
      | error defect => cases defect <;> simp [none, Except.toOption]
  | error defect =>
      cases defect <;> cases fields.time with
      | ok time => simp [none, Except.toOption]
      | error defect => cases defect <;> simp [none, Except.toOption]

/-- Without a year of either kind, fields are no day. -/
theorem Fields.date_of_no_year {fields : Fields} (year : fields.get? .year = none)
    (yearOfCentury : fields.get? .yearOfCentury = none) (isoYear : fields.get? .isoYear = none)
    (isoYearOfCentury : fields.get? .isoYearOfCentury = none) :
    fields.date = .error .insufficient := by
  have none (hundreds : Slot) {whole rest : Slot} (wholeNone : fields.get? whole = none)
      (restNone : fields.get? rest = none) :
      fields.yearFrom whole hundreds rest = .ok none ∨
        fields.yearFrom whole hundreds rest = .error .insufficient := by
    unfold Fields.yearFrom
    rw [wholeNone, restNone]
    cases fields.get? hundreds with
    | none => exact .inl rfl
    | some high => exact .inr rfl
  unfold Fields.date
  rcases none .century year yearOfCentury with yearEq | yearEq
  · rcases none .isoCentury isoYear isoYearOfCentury with isoYearEq | isoYearEq
    · rw [yearEq, isoYearEq]
      rfl
    · rw [yearEq, isoYearEq]
      rfl
  · rw [yearEq]
    rfl

/-- A moment that is read keeps what the text gives of the time of day, or it is midnight.  Where no
count of seconds is named it keeps a time that is given whole, as a pattern that names it whole always
has it, and is midnight otherwise.  Where no year is named it keeps what is given in any case. -/
theorem readMoment?_keeps_clock (text format : String) (uncounted : format ≠ "long") :
    ∀ moment, readMoment? text format = some moment →
      ∃ items, Pattern.read? format = some items ∧
        (moment.time.Keeps items text ∨ moment.time = .midnight) ∧
        (¬ items.Names .timestamp →
          (items.GivesClock text → moment.time.Keeps items text) ∧
          (¬ items.GivesClock text → moment.time = .midnight) ∧
          (items.NamesClock → moment.time.Keeps items text)) ∧
        (items.NamesNoYear → moment.time.Keeps items text) := by
  intro moment found
  unfold readMoment? at found
  rw [if_neg (show ¬ format = millisecondsPattern from uncounted)] at found
  obtain ⟨items, itemsEq, found⟩ := Option.bind_eq_some_iff.1 found
  obtain ⟨fields, fieldsEq, found⟩ := Option.bind_eq_some_iff.1 found
  have inRange : fields.InRange := Pattern.fields?_inRange itemsEq fieldsEq
  have clock : fields.HasClock ↔ items.GivesClock text := Fields.hasClock_iff fieldsEq
  have absent {slot : Slot} (unnamed : ¬ items.Names slot) : fields.get? slot = none :=
    Option.eq_none_iff_forall_ne_some.2 fun value given =>
      unnamed ((Pattern.get?_fields? fieldsEq).1 given).names
  refine ⟨items, itemsEq, ?_⟩
  cases momentEq : fields.moment? with
  | some read =>
      rw [momentEq] at found
      cases found
      have keeps : moment.time.Keeps items text := fun slot value gives =>
        Fields.shows_of_moment? inRange momentEq slot value ((Pattern.get?_fields? fieldsEq).2 gives)
      refine ⟨.inl keeps, fun unnamed => ⟨fun _ => keeps, fun lacks => ?_, fun _ => keeps⟩, fun _ => keeps⟩
      rw [Fields.moment?_of_no_timestamp (absent unnamed),
        Fields.time_of_not_hasClock fun has => lacks (clock.1 has)] at momentEq
      obtain ⟨_, _, none⟩ := Option.bind_eq_some_iff.1 momentEq
      cases none
  | none =>
      rw [momentEq] at found
      obtain ⟨date, dateEq, rfl⟩ := Option.map_eq_some_iff.1 found
      have lacks (unnamed : ¬ items.Names .timestamp) : ¬ items.GivesClock text := by
        intro gives
        obtain ⟨time, timeEq, _⟩ := Fields.time_of_hasClock inRange (clock.2 gives)
        rw [Fields.moment?_of_no_timestamp (absent unnamed), dateEq, timeEq] at momentEq
        cases momentEq
      refine ⟨.inr rfl, fun unnamed => ⟨fun gives => absurd gives (lacks unnamed), fun _ => rfl,
        fun names => absurd (names.givesClock fieldsEq) (lacks unnamed)⟩, fun noYear => ?_⟩
      rw [Fields.date_of_no_year (absent (noYear .year (by decide)))
        (absent (noYear .yearOfCentury (by decide))) (absent (noYear .isoYear (by decide)))
        (absent (noYear .isoYearOfCentury (by decide)))] at dateEq
      cases dateEq

/-- The hour of a text is lost where its pattern names no minute: the day is read alone, and noon turns
into midnight. -/
theorem clock_lost :
    ∃ items moment, Pattern.read? "%Y-%m-%d %H" = some items ∧ items.Names .hourOfHalf ∧
      readMoment? "2024-03-01 12" "%Y-%m-%d %H" = some moment ∧ moment.text = "2024-03-01 00:00:00" ∧
      items.Gives "2024-03-01 12".toList .half 1 ∧ ¬ moment.time.Shows .half 1 := by
  let items : Pattern := [.number .year, .literal '-', .number .month, .literal '-', .number .day, .blanks,
    .number .hour]
  have read : (readMoment? "2024-03-01 12" "%Y-%m-%d %H").map (fun moment => (moment.text, moment.time)) =
      some ("2024-03-01 00:00:00", .midnight) := by
    decide +kernel
  obtain ⟨moment, momentEq, same⟩ := Option.map_eq_some_iff.1 read
  obtain ⟨textEq, timeEq⟩ := Prod.mk.inj same
  have half : ((items.fields? "2024-03-01 12").bind fun fields => fields.get? .half) = some 1 := by
    decide +kernel
  obtain ⟨fields, fieldsEq, half⟩ := Option.bind_eq_some_iff.1 half
  refine ⟨items, moment, by decide +kernel, by decide, momentEq, textEq,
    (Pattern.get?_fields? fieldsEq).1 half, ?_⟩
  rw [timeEq, TimeOfDay.Shows]
  decide

/-- Half past noon stays what it is where the pattern names the minute. -/
theorem readMoment?_keeps_clock_of_noon :
    ∃ items moment, Pattern.read? "%Y-%m-%d %H:%M" = some items ∧
      readMoment? "2024-03-01 12:30" "%Y-%m-%d %H:%M" = some moment ∧
      moment.text = "2024-03-01 12:30:00" ∧ moment.time.Keeps items "2024-03-01 12:30" := by
  have read : (readMoment? "2024-03-01 12:30" "%Y-%m-%d %H:%M").map DateTime.text =
      some "2024-03-01 12:30:00" := by
    decide +kernel
  obtain ⟨moment, momentEq, textEq⟩ := Option.map_eq_some_iff.1 read
  obtain ⟨items, itemsEq, _, keeps, _⟩ :=
    readMoment?_keeps_clock "2024-03-01 12:30" "%Y-%m-%d %H:%M" (by decide) moment momentEq
  have uncounted : (Pattern.read? "%Y-%m-%d %H:%M").all fun items => ¬ items.Names .timestamp := by
    decide +kernel
  have clock : (Pattern.read? "%Y-%m-%d %H:%M").all fun items =>
      items.Names .half ∧ items.Names .hourOfHalf ∧ items.Names .minute ∧ ¬ items.Names .nanosecond := by
    decide +kernel
  rw [itemsEq] at uncounted clock
  obtain ⟨half, hour, minute, noFraction⟩ := of_decide_eq_true clock
  exact ⟨items, moment, itemsEq, momentEq, textEq, (keeps (of_decide_eq_true uncounted)).2.2
    ⟨half, hour, minute, fun fraction => absurd fraction noFraction⟩⟩

end Trellis.Calendar
