import Mathlib.Algebra.BigOperators.Group.List.Basic
import Mathlib.Order.Monotone.Basic
import Trellis.Proofs.Calendar.Moments
import Trellis.Proofs.Number.Integers

/-!
Moments by their milliseconds.

The days up to a year are counted year after year, and the days up to a date month after month.  Every
count of milliseconds in the range of the years is that of one moment, and a text of a count is read as
that moment.  Later moments have greater counts, before 1970 and after it.
-/

namespace Trellis.Calendar

open Number (IsInteger Width)

/-! ### Counts -/

/-- How many days pass from the beginning of 1970 to the beginning of the year; the days of a year
before 1970 are counted back. -/
def daysUntil (year : Int) : Int :=
  ((List.range (year - 1970).toNat).map fun passed : Nat => (yearLength (1970 + passed) : Int)).sum
    - ((List.range (1970 - year).toNat).map fun passed : Nat => (yearLength (1969 - passed) : Int)).sum

def Date.daysInYear (date : Date) : Nat :=
  ((monthLengths date.year).take (date.month - 1)).sum + (date.day - 1)

/-- The moment is the given number of milliseconds after the beginning of 1970, or before it if the
number is negative.  What it has beyond a whole second counts forward. -/
def DateTime.IsAt (moment : DateTime) (count : Int) : Prop :=
  ∃ passed < 1000, moment.time.nanosecond = passed * 1000000 ∧
    ((daysUntil moment.date.year + moment.date.daysInYear) * 86400 + moment.time.second) * 1000 + passed
      = count

def DateTime.millisecondsSinceEpoch (moment : DateTime) : Int :=
  moment.secondsSinceEpoch * 1000 + moment.time.nanosecond / 1000000

def Date.Before (date later : Date) : Prop :=
  date.year < later.year ∨ date.year = later.year ∧ date.ordinal < later.ordinal

def TimeOfDay.Before (time later : TimeOfDay) : Prop :=
  time.second < later.second ∨ time.second = later.second ∧ time.nanosecond < later.nanosecond

def DateTime.Before (moment later : DateTime) : Prop :=
  moment.date.Before later.date ∨ moment.date = later.date ∧ moment.time.Before later.time

/-! ### Years -/

private theorem yearStart_succ (year : Int) : yearStart
    (year + 1) = yearStart year + yearLength year := by
  simp only [yearStart, daysBeforeYear, yearLength, isLeap, Bool.and_eq_true, Bool.or_eq_true,
    beq_iff_eq, bne_iff_ne, add_sub_cancel_right]
  split <;> omega

private theorem yearLength_pos (year : Int) : 0 < yearLength year := by
  unfold yearLength
  split <;> decide

private theorem yearStart_lt_iff {year later : Int} :
    yearStart year < yearStart later ↔ year < later := by
  have mono : StrictMono yearStart := by
    refine strictMono_int_of_lt_succ fun year => ?_
    have positive := yearLength_pos year
    rw [yearStart_succ]
    omega
  exact mono.lt_iff_lt

private theorem yearStart_le_iff {year later : Int} :
    yearStart year ≤ yearStart later ↔ year ≤ later := by
  rw [← Int.not_lt, yearStart_lt_iff, Int.not_lt]

private theorem sum_yearLength_after (years : Nat) :
    ((List.range years).map fun passed : Nat => (yearLength (1970 + passed) : Int)).sum =
      yearStart (1970 + years) := by
  induction years with
  | zero => rfl
  | succ years ih =>
      rw [List.range_succ, List.map_append, List.sum_append, ih, List.map_singleton, List.sum_singleton,
        ← yearStart_succ, Int.natCast_succ, Int.add_assoc]

private theorem sum_yearLength_before (years : Nat) :
    ((List.range years).map fun passed : Nat => (yearLength (1969 - passed) : Int)).sum =
      -yearStart (1970 - years) := by
  induction years with
  | zero => rfl
  | succ years ih =>
      have last := yearStart_succ (1969 - years)
      have next : (1969 - years + 1 : Int) = 1970 - years := by omega
      have here : (1970 - (years + 1 : Nat) : Int) = 1969 - years := by omega
      rw [next] at last
      rw [List.range_succ, List.map_append, List.sum_append, ih, List.map_singleton, List.sum_singleton,
        here, last]
      omega

/-- The closed form of the count agrees with counting the years. -/
private theorem daysUntil_eq_yearStart (year : Int) : daysUntil year = yearStart year := by
  have epoch : yearStart 1970 = 0 := rfl
  rw [daysUntil, sum_yearLength_after, sum_yearLength_before]
  rcases Int.le_total 1970 year with later | earlier
  · have after : (1970 + (year - 1970).toNat : Int) = year := by omega
    have none : (1970 - (1970 - year).toNat : Int) = 1970 := by omega
    rw [after, none, epoch]
    omega
  · have none : (1970 + (year - 1970).toNat : Int) = 1970 := by omega
    have before : (1970 - (1970 - year).toNat : Int) = year := by omega
    rw [none, before, epoch]
    omega

private theorem yearOfDay_spec (number : Int) :
    yearStart (yearOfDay number) ≤ number ∧ number < yearStart (yearOfDay number + 1) := by
  have guessed : number < yearStart ((number + epochDay) * 400 / 146097 + 1 + 1 + 1) ∧
      yearStart ((number + epochDay) * 400 / 146097 + 1 - 1) ≤ number := by
    simp only [yearStart, daysBeforeYear, epochDay]
    omega
  unfold yearOfDay
  simp only
  split
  · rename_i less
    rw [Int.sub_add_cancel]
    exact ⟨guessed.2, less⟩
  · rename_i least
    split
    · rename_i next
      exact ⟨next, guessed.1⟩
    · rename_i less
      exact ⟨Int.not_lt.1 least, Int.not_le.1 less⟩

private theorem yearOfDay_eq {year number : Int} (least : yearStart year ≤ number)
    (less : number < yearStart (year + 1)) : yearOfDay number = year := by
  obtain ⟨foundLeast, foundLess⟩ := yearOfDay_spec number
  have notLater : year < yearOfDay number + 1 :=
    yearStart_lt_iff.1 (Int.lt_of_le_of_lt least foundLess)
  have notEarlier : yearOfDay number < year + 1 :=
    yearStart_lt_iff.1 (Int.lt_of_le_of_lt foundLeast less)
  omega

/-! ### Days -/

private theorem monthDayFrom_within {month day : Nat} {lengths : List Nat} (positive : 1 ≤ day)
    (within : day ≤ lengths.sum) :
    ∃ passed length, lengths[passed]? = some length ∧
      (monthDayFrom month day lengths).1 = month + passed ∧
      1 ≤ (monthDayFrom month day lengths).2 ∧ (monthDayFrom month day lengths).2 ≤ length := by
  induction lengths generalizing month day with
  | nil =>
      rw [List.sum_nil] at within
      omega
  | cons length rest ih =>
      rw [List.sum_cons] at within
      rw [monthDayFrom]
      split
      · rename_i here
        exact ⟨0, length, rfl, rfl, positive, here⟩
      · obtain ⟨passed, found, foundEq, monthEq, least, most⟩ :=
          @ih (month + 1) (day - length) (by omega) (by omega)
        exact ⟨passed + 1, found, foundEq, by omega, least, most⟩

theorem Date.day_mem_month (date : Date) :
    1 ≤ date.month ∧ 1 ≤ date.day ∧
      ∃ length, (monthLengths date.year)[date.month - 1]? = some length ∧ date.day ≤ length := by
  have within : date.ordinal ≤ (monthLengths date.year).sum := by
    rw [sum_monthLengths]
    exact date.ordinal_le
  obtain ⟨passed, length, lengthEq, monthEq, least, most⟩ :=
    @monthDayFrom_within 1 _ _ date.ordinal_pos within
  have month : date.month = 1 + passed := monthEq
  refine ⟨by omega, least, length, ?_, most⟩
  rw [month, Nat.add_sub_cancel_left, lengthEq]

theorem Date.daysInYear_add_one (date : Date) : date.daysInYear + 1 = date.ordinal := by
  obtain ⟨passed, _, monthEq, sumEq⟩ := monthDayFrom_eq
    (show monthDayFrom 1 date.ordinal (monthLengths date.year) = (date.month, date.day) from rfl)
  obtain ⟨_, least, _⟩ := date.day_mem_month
  rw [daysInYear, monthEq, Nat.add_sub_cancel_left]
  omega

theorem Date.dayNumber_eq (date : Date) :
    date.dayNumber = daysUntil date.year + date.daysInYear := by
  have rank := date.daysInYear_add_one
  rw [dayNumber, daysUntil_eq_yearStart]
  omega

theorem Date.dayNumber_mem_year (date : Date) :
    yearStart date.year ≤ date.dayNumber ∧ date.dayNumber < yearStart (date.year + 1) := by
  have least := date.ordinal_pos
  have most := date.ordinal_le
  rw [yearStart_succ, dayNumber]
  omega

theorem Date.ofOrdinal?_eq_some_iff {year : Int} {ordinal : Nat} {date : Date} :
    Date.ofOrdinal? year ordinal = some date ↔ date.year = year ∧ date.ordinal = ordinal := by
  unfold Date.ofOrdinal?
  constructor
  · intro found
    split at found <;> cases found
    exact ⟨rfl, rfl⟩
  · rintro ⟨rfl, rfl⟩
    rw [dif_pos ⟨⟨date.ordinal_pos, date.ordinal_le⟩, date.firstYear_le, date.le_lastYear⟩]

theorem Date.ofDayNumber?_eq_some_iff {number : Int} {date : Date} :
    Date.ofDayNumber? number = some date ↔ date.dayNumber = number := by
  simp only [Date.ofDayNumber?, Date.ofOrdinal?_eq_some_iff]
  constructor
  · rintro ⟨yearEq, ordinalEq⟩
    have least := (yearOfDay_spec number).1
    rw [dayNumber, ordinalEq, yearEq]
    omega
  · rintro rfl
    obtain ⟨least, less⟩ := date.dayNumber_mem_year
    rw [yearOfDay_eq least less]
    refine ⟨rfl, ?_⟩
    rw [dayNumber]
    omega

/-- The counted days that are dates are those of the years that a date may lie in. -/
theorem Date.exists_dayNumber_iff {number : Int} :
    (∃ date : Date, date.dayNumber = number) ↔
      daysUntil firstYear ≤ number ∧ number < daysUntil (lastYear + 1) := by
  rw [daysUntil_eq_yearStart, daysUntil_eq_yearStart]
  constructor
  · rintro ⟨date, rfl⟩
    obtain ⟨least, less⟩ := date.dayNumber_mem_year
    have first := yearStart_le_iff.2 date.firstYear_le
    have last := yearStart_le_iff.2 (Int.add_le_add_right date.le_lastYear 1)
    exact ⟨Int.le_trans first least, Int.lt_of_lt_of_le less last⟩
  · rintro ⟨first, last⟩
    obtain ⟨least, less⟩ := yearOfDay_spec number
    have firstYear_le : firstYear < yearOfDay number + 1 :=
      yearStart_lt_iff.1 (Int.lt_of_le_of_lt first less)
    have le_lastYear : yearOfDay number < lastYear + 1 :=
      yearStart_lt_iff.1 (Int.lt_of_le_of_lt least last)
    rw [yearStart_succ] at less
    refine ⟨⟨yearOfDay number, (number - yearStart (yearOfDay number) + 1).toNat, by omega, by omega,
      by omega, by omega⟩, ?_⟩
    simp only [dayNumber]
    omega

theorem Date.before_iff {date later : Date} :
    date.Before later ↔ date.dayNumber < later.dayNumber := by
  obtain ⟨least, less⟩ := date.dayNumber_mem_year
  obtain ⟨laterLeast, laterLess⟩ := later.dayNumber_mem_year
  rcases Int.lt_trichotomy date.year later.year with before | same | after
  · have years := yearStart_le_iff.2 (Int.add_one_le_iff.2 before)
    exact ⟨fun _ => by omega, fun _ => .inl before⟩
  · rw [Before, dayNumber, dayNumber, same]
    omega
  · have years := yearStart_le_iff.2 (Int.add_one_le_iff.2 after)
    rw [Before]
    omega

theorem Date.dayNumber_inj {date date' : Date} (same : date.dayNumber = date'.dayNumber) :
    date = date' :=
  Option.some.inj ((Date.ofDayNumber?_eq_some_iff.2 same).symm.trans (Date.ofDayNumber?_eq_some_iff.2 rfl))

/-! ### Moments -/

theorem TimeOfDay.of?_eq_some_iff {second nanosecond : Nat} {time : TimeOfDay} :
    TimeOfDay.of? second nanosecond = some time ↔
      time.second = second ∧ time.nanosecond = nanosecond := by
  refine ⟨TimeOfDay.of?_eq_some, ?_⟩
  rintro ⟨rfl, rfl⟩
  rw [TimeOfDay.of?, dif_pos ⟨time.second_lt, time.nanosecond_lt⟩]

theorem DateTime.ofSeconds?_eq_some_iff {seconds : Int} {nanosecond : Nat} {moment : DateTime} :
    DateTime.ofSeconds? seconds nanosecond = some moment ↔
      moment.secondsSinceEpoch = seconds ∧ moment.time.nanosecond = nanosecond := by
  have bound := moment.time.second_lt
  unfold secondsPerDay at bound
  simp only [DateTime.ofSeconds?, Option.bind_eq_bind, Option.bind_eq_some_iff,
    Date.ofDayNumber?_eq_some_iff, TimeOfDay.of?_eq_some_iff, secondsSinceEpoch, secondsPerDay]
  constructor
  · rintro ⟨date, dayEq, time, ⟨secondEq, nanosecondEq⟩, same⟩
    cases same
    refine ⟨?_, nanosecondEq⟩
    simp only [dayEq, secondEq]
    omega
  · rintro ⟨rfl, rfl⟩
    exact ⟨moment.date, by omega, moment.time, ⟨by omega, rfl⟩, rfl⟩

theorem DateTime.isAt_iff {moment : DateTime} {count : Int} :
    moment.IsAt count ↔ moment.secondsSinceEpoch = count / 1000 ∧
      moment.time.nanosecond = (count % 1000).toNat * 1000000 := by
  rw [IsAt, ← Date.dayNumber_eq, secondsSinceEpoch, secondsPerDay]
  constructor
  · rintro ⟨passed, less, nanosecondEq, rfl⟩
    omega
  · rintro ⟨secondsEq, nanosecondEq⟩
    exact ⟨(count % 1000).toNat, by omega, nanosecondEq, by omega⟩

theorem DateTime.ofMilliseconds?_eq_some_iff {count : Int} {moment : DateTime} :
    DateTime.ofMilliseconds? count = some moment ↔ moment.IsAt count := by
  rw [DateTime.ofMilliseconds?, DateTime.ofSeconds?_eq_some_iff, DateTime.isAt_iff]

theorem DateTime.IsAt.unique {moment moment' : DateTime} {count : Int} (isAt : moment.IsAt count)
    (isAt' : moment'.IsAt count) : moment = moment' :=
  Option.some.inj ((DateTime.ofMilliseconds?_eq_some_iff.2 isAt).symm.trans
    (DateTime.ofMilliseconds?_eq_some_iff.2 isAt'))

theorem DateTime.IsAt.millisecondsSinceEpoch_eq {moment : DateTime} {count : Int}
    (isAt : moment.IsAt count) : moment.millisecondsSinceEpoch = count := by
  obtain ⟨secondsEq, nanosecondEq⟩ := DateTime.isAt_iff.1 isAt
  rw [millisecondsSinceEpoch, secondsEq, nanosecondEq]
  omega

theorem DateTime.IsAt.before_iff {moment later : DateTime} {count laterCount : Int}
    (isAt : moment.IsAt count) (laterIsAt : later.IsAt laterCount) :
    moment.Before later ↔ count < laterCount := by
  obtain ⟨secondsEq, nanosecondEq⟩ := DateTime.isAt_iff.1 isAt
  obtain ⟨laterSecondsEq, laterNanosecondEq⟩ := DateTime.isAt_iff.1 laterIsAt
  have bound := moment.time.second_lt
  have laterBound := later.time.second_lt
  unfold secondsPerDay at bound laterBound
  unfold secondsSinceEpoch secondsPerDay at secondsEq laterSecondsEq
  have sameDay : moment.date = later.date ↔ moment.date.dayNumber = later.date.dayNumber :=
    ⟨congrArg Date.dayNumber, Date.dayNumber_inj⟩
  rw [Before, Date.before_iff, TimeOfDay.Before, sameDay]
  omega

theorem DateTime.exists_isAt_iff {count : Int} :
    (∃ moment : DateTime, moment.IsAt count) ↔
      daysUntil firstYear * 86400000 ≤ count ∧ count < daysUntil (lastYear + 1) * 86400000 := by
  have days : (∃ moment : DateTime, moment.IsAt count) ↔
      ∃ date : Date, date.dayNumber = count / 86400000 := by
    constructor
    · rintro ⟨moment, isAt⟩
      obtain ⟨secondsEq, _⟩ := DateTime.isAt_iff.1 isAt
      have bound := moment.time.second_lt
      unfold secondsPerDay at bound
      unfold secondsSinceEpoch secondsPerDay at secondsEq
      exact ⟨moment.date, by omega⟩
    · rintro ⟨date, dayEq⟩
      refine ⟨⟨date, ⟨(count / 1000 % 86400).toNat, (count % 1000).toNat * 1000000, ?_, ?_⟩⟩, ?_⟩
      · rw [secondsPerDay]
        omega
      · rw [nanosecondsPerSecond]
        omega
      · simp only [DateTime.isAt_iff, secondsSinceEpoch, dayEq, secondsPerDay, and_true]
        omega
  rw [days, Date.exists_dayNumber_iff]
  omega

/-! ### Texts -/

private theorem readMoment?_long_iff {text : String} {moment : DateTime} :
    readMoment? text "long" = some moment ↔
      ∃ count, IsInteger text.toList count ∧ Width.long.Spans count ∧ moment.IsAt count := by
  have reads : readMoment? text "long" =
      (Number.FixedInt.read? .long text).bind fun number => DateTime.ofMilliseconds? number.value :=
    if_pos rfl
  rw [reads]
  constructor
  · intro found
    obtain ⟨number, numberEq, found⟩ := Option.bind_eq_some_iff.1 found
    obtain ⟨widthEq, isInteger⟩ := Number.FixedInt.read?_eq_some_iff_isInteger.1 numberEq
    exact ⟨number.value, isInteger, widthEq ▸ number.spans, DateTime.ofMilliseconds?_eq_some_iff.1 found⟩
  · rintro ⟨count, isInteger, spans, isAt⟩
    obtain ⟨number, widthEq, rfl⟩ := Number.FixedInt.exists_of_spans spans
    rw [Number.FixedInt.read?_eq_some_iff_isInteger.2 ⟨widthEq, isInteger⟩, Option.bind_some,
      DateTime.ofMilliseconds?_eq_some_iff.2 isAt]

/-- A text of milliseconds is read if it is an integer of 64 bits whose moment lies in the range of
the years, as the only moment with that count.  Greater counts give later moments. -/
theorem readMoment?_long_exact (text : String) :
    ((∃ moment, readMoment? text "long" = some moment) ↔
        ∃ count, IsInteger text.toList count ∧ Width.long.Spans count ∧
          daysUntil firstYear * 86400000 ≤ count ∧ count < daysUntil (lastYear + 1) * 86400000) ∧
      ∀ moment, readMoment? text "long" = some moment →
        ∃ count, IsInteger text.toList count ∧ moment.IsAt count ∧
          (∀ other : DateTime, other.IsAt count → other = moment) ∧
          moment.millisecondsSinceEpoch = count ∧
          ∀ laterText later laterCount, readMoment? laterText "long" = some later →
            IsInteger laterText.toList laterCount → (count < laterCount ↔ moment.Before later) := by
  constructor
  · simp only [readMoment?_long_iff, ← DateTime.exists_isAt_iff]
    constructor
    · rintro ⟨moment, count, isInteger, spans, isAt⟩
      exact ⟨count, isInteger, spans, moment, isAt⟩
    · rintro ⟨count, isInteger, spans, moment, isAt⟩
      exact ⟨moment, count, isInteger, spans, isAt⟩
  · intro moment found
    obtain ⟨count, isInteger, _, isAt⟩ := readMoment?_long_iff.1 found
    refine ⟨count, isInteger, isAt, fun other otherIsAt => otherIsAt.unique isAt,
      isAt.millisecondsSinceEpoch_eq, ?_⟩
    intro laterText later laterCount laterFound laterIsInteger
    obtain ⟨found, foundIsInteger, _, laterIsAt⟩ := readMoment?_long_iff.1 laterFound
    rw [foundIsInteger.unique laterIsInteger] at laterIsAt
    exact (isAt.before_iff laterIsAt).symm

/-- The millisecond before 1970 is the last of the year before.  The last millisecond of the range is
read, and the next one is refused. -/
theorem readMoment?_long_exact_at_bounds :
    (∃ moment, readMoment? "-1" "long" = some moment ∧ moment.text = "1969-12-31 23:59:59.999" ∧
      moment.millisecondsSinceEpoch = -1) ∧
    (∃ moment, readMoment? "8210266876799999" "long" = some moment) ∧
    ∀ moment, readMoment? "8210266876800000" "long" ≠ some moment := by
  have one : IsInteger "-1".toList (-1) :=
    .minus (by decide) (@Number.isNumeral_of_all ['1'] (by decide))
  have last : IsInteger "8210266876799999".toList 8210266876799999 :=
    .unsigned (by decide) (Number.isNumeral_of_all (by decide))
  have next : IsInteger "8210266876800000".toList 8210266876800000 :=
    .unsigned (by decide) (Number.isNumeral_of_all (by decide))
  refine ⟨?_, ?_, ?_⟩
  · have text : (readMoment? "-1" "long").map DateTime.text = some "1969-12-31 23:59:59.999" := by
      decide +kernel
    obtain ⟨moment, found, textEq⟩ := Option.map_eq_some_iff.1 text
    obtain ⟨count, isInteger, _, _, countEq, _⟩ := (readMoment?_long_exact "-1").2 moment found
    exact ⟨moment, found, textEq, countEq.trans (isInteger.unique one)⟩
  · refine (readMoment?_long_exact "8210266876799999").1.2 ⟨_, last, by decide, ?_⟩
    rw [daysUntil_eq_yearStart, daysUntil_eq_yearStart]
    decide
  · intro moment found
    obtain ⟨count, isInteger, _, _, less⟩ :=
      (readMoment?_long_exact "8210266876800000").1.1 ⟨moment, found⟩
    rw [isInteger.unique next, daysUntil_eq_yearStart] at less
    revert less
    decide

end Trellis.Calendar
