import Rulebook.Calendar.Moment

/-!
# Counting days

Days are counted without a gap: each day but the last is followed by the one with the next number.
So the numbers of days are in the order of the days, different days have different numbers, and each
number below that of the whole calendar belongs to a day. By them moments are told apart as well:
two moments at one distance from the standard time are the same only if they agree in everything.
-/

namespace Rulebook

namespace Date

/-! ## Months and years -/

theorem isDay_iff {year month day : Nat} :
    isDay year month day = true ↔
      (1 ≤ year ∧ year ≤ 9999) ∧ (1 ≤ month ∧ month ≤ 12) ∧
        1 ≤ day ∧ day ≤ daysInMonth year month := by
  simp [isDay, and_assoc]

/-- A day can be made of its parts exactly if there is such a day. -/
theorem ofParts?_eq_some_iff {year month day : Nat} {date : Date} :
    ofParts? year month day = some date ↔
      date.year = year ∧ date.month = month ∧ date.day = day := by
  constructor
  · intro made
    unfold ofParts? at made
    split at made
    · cases made
      exact ⟨rfl, rfl, rfl⟩
    · cases made
  · rintro ⟨rfl, rfl, rfl⟩
    exact dif_pos date.valid

theorem ofParts?_self (date : Date) : ofParts? date.year date.month date.day = some date :=
  ofParts?_eq_some_iff.mpr ⟨rfl, rfl, rfl⟩

theorem daysInMonth_pos (year month : Nat) : 0 < daysInMonth year month := by
  unfold daysInMonth
  repeat' split
  all_goals decide

/-- No month is longer than thirty-one days. -/
theorem daysInMonth_le (year month : Nat) : daysInMonth year month ≤ 31 := by
  unfold daysInMonth
  repeat' split
  all_goals decide

private theorem daysBeforeMonth_one (year : Nat) : daysBeforeMonth year 1 = 0 :=
  rfl

private theorem daysBeforeMonth_succ {year month : Nat} (month_pos : 1 ≤ month) :
    daysBeforeMonth year (month + 1) = daysBeforeMonth year month + daysInMonth year month := by
  obtain ⟨before, rfl⟩ : ∃ before, month = before + 1 := ⟨month - 1, by omega⟩
  simp [daysBeforeMonth, List.range_succ]

private theorem daysBeforeMonth_le {year month later : Nat} (month_pos : 1 ≤ month)
    (ordered : month ≤ later) : daysBeforeMonth year month ≤ daysBeforeMonth year later := by
  induction ordered with
  | refl => exact Nat.le_refl _
  | step ordered inductionHypothesis =>
    rw [daysBeforeMonth_succ (Nat.le_trans month_pos ordered)]
    exact Nat.le_add_right_of_le inductionHypothesis

/-- The number of days before a year. -/
def daysBeforeYear (year : Nat) : Nat :=
  365 * (year - 1) + (year - 1) / 4 - (year - 1) / 100 + (year - 1) / 400

/-- The days before a day are those of the years, of the months and of the days before it. -/
theorem daysBefore_eq (date : Date) :
    date.daysBefore =
      daysBeforeYear date.year + daysBeforeMonth date.year date.month + (date.day - 1) :=
  rfl

private theorem daysBeforeMonth_end (year : Nat) :
    daysBeforeMonth year 13 = 365 + (isLeapYear year).toNat := by
  cases leap : isLeapYear year <;>
    simp [daysBeforeMonth, daysInMonth, leap, List.range_succ]

private theorem leap_toNat {year : Nat} :
    (isLeapYear year).toNat =
      (if 4 ∣ year then 1 else 0) + (if 400 ∣ year then 1 else 0) -
        (if 100 ∣ year then 1 else 0) := by
  have whole : 400 ∣ year → 100 ∣ year := Nat.dvd_trans (by decide)
  have quarter : 100 ∣ year → 4 ∣ year := Nat.dvd_trans (by decide)
  by_cases four : 4 ∣ year <;> by_cases hundred : 100 ∣ year <;>
    by_cases fourHundred : 400 ∣ year <;>
      simp_all [isLeapYear, Nat.dvd_iff_mod_eq_zero]

/-- A year is as long as its twelve months. -/
theorem daysBeforeYear_succ {year : Nat} (year_pos : 1 ≤ year) :
    daysBeforeYear (year + 1) = daysBeforeYear year + daysBeforeMonth year 13 := by
  obtain ⟨before, rfl⟩ : ∃ before, year = before + 1 := ⟨year - 1, by omega⟩
  have quarter : (if 100 ∣ before + 1 then 1 else 0) ≤ (if 4 ∣ before + 1 then 1 else 0) := by
    split
    · rename_i hundred
      have four : 4 ∣ before + 1 := Nat.dvd_trans (by decide) hundred
      simp only [if_pos four, Nat.le_refl]
    · exact Nat.zero_le _
  have fewer : before / 100 ≤ before := Nat.div_le_self before 100
  rw [daysBeforeMonth_end, leap_toNat, daysBeforeYear, daysBeforeYear, Nat.add_sub_cancel,
    Nat.add_sub_cancel, Nat.succ_div, Nat.succ_div, Nat.succ_div]
  generalize (if 4 ∣ before + 1 then 1 else 0) = fourth at quarter ⊢
  omega

private theorem daysBeforeYear_le {year later : Nat} (year_pos : 1 ≤ year)
    (ordered : year ≤ later) : daysBeforeYear year ≤ daysBeforeYear later := by
  induction ordered with
  | refl => exact Nat.le_refl _
  | step ordered inductionHypothesis =>
    rw [daysBeforeYear_succ (Nat.le_trans year_pos ordered)]
    exact Nat.le_add_right_of_le inductionHypothesis

/-! ## The order of days -/

/-- Whether a day comes before another: by the year, then by the month, then by the day. -/
def IsBefore (left right : Date) : Prop :=
  left.year < right.year ∨
    left.year = right.year ∧
      (left.month < right.month ∨ left.month = right.month ∧ left.day < right.day)

private theorem isBefore_or (left right : Date) :
    left.IsBefore right ∨ left = right ∨ right.IsBefore left := by
  obtain ⟨year, month, day, valid⟩ := left
  obtain ⟨year', month', day', valid'⟩ := right
  simp only [IsBefore, mk.injEq]
  omega

/-- The days of a month are counted before those of the next month. -/
private theorem daysBefore_lt_nextMonth (date : Date) :
    date.daysBefore < daysBeforeYear date.year + daysBeforeMonth date.year (date.month + 1) := by
  obtain ⟨-, ⟨month_pos, -⟩, day_pos, day_le⟩ := isDay_iff.mp date.valid
  rw [daysBefore_eq, daysBeforeMonth_succ month_pos]
  omega

private theorem daysBefore_lt_nextYear (date : Date) :
    date.daysBefore < daysBeforeYear (date.year + 1) := by
  obtain ⟨⟨year_pos, -⟩, ⟨month_pos, month_le⟩, -⟩ := isDay_iff.mp date.valid
  have inMonth := date.daysBefore_lt_nextMonth
  have inYear : daysBeforeMonth date.year (date.month + 1) ≤ daysBeforeMonth date.year 13 :=
    daysBeforeMonth_le (by omega) (by omega)
  rw [daysBeforeYear_succ year_pos]
  omega

private theorem daysBefore_lt_of_isBefore {left right : Date} (before : left.IsBefore right) :
    left.daysBefore < right.daysBefore := by
  obtain ⟨-, ⟨month_pos, -⟩, day_pos, -⟩ := isDay_iff.mp left.valid
  rcases before with earlierYear | ⟨sameYear, earlierMonth | ⟨sameMonth, earlierDay⟩⟩
  · have inYear := left.daysBefore_lt_nextYear
    have years : daysBeforeYear (left.year + 1) ≤ daysBeforeYear right.year :=
      daysBeforeYear_le (by omega) earlierYear
    rw [right.daysBefore_eq]
    omega
  · have inMonth := left.daysBefore_lt_nextMonth
    have months : daysBeforeMonth left.year (left.month + 1) ≤
        daysBeforeMonth left.year right.month :=
      daysBeforeMonth_le (by omega) earlierMonth
    rw [right.daysBefore_eq, ← sameYear]
    omega
  · rw [daysBefore_eq, daysBefore_eq, ← sameYear, ← sameMonth]
    omega

/-- The numbers of days are in the order of the days. -/
theorem daysBefore_lt_iff {left right : Date} :
    left.daysBefore < right.daysBefore ↔ left.IsBefore right := by
  refine ⟨fun fewer => ?_, daysBefore_lt_of_isBefore⟩
  rcases left.isBefore_or right with before | rfl | after
  · exact before
  · exact absurd fewer (Nat.lt_irrefl _)
  · exact absurd (daysBefore_lt_of_isBefore after) (Nat.lt_asymm fewer)

/-- Different days have different numbers. -/
theorem daysBefore_inj {left right : Date} :
    left.daysBefore = right.daysBefore ↔ left = right := by
  refine ⟨fun equal => ?_, fun same => same ▸ rfl⟩
  rcases left.isBefore_or right with before | same | after
  · exact absurd equal (Nat.ne_of_lt (daysBefore_lt_of_isBefore before))
  · exact same
  · exact absurd equal.symm (Nat.ne_of_lt (daysBefore_lt_of_isBefore after))

/-! ## The day after -/

/-- The number of days of the whole calendar. -/
def daysInCalendar : Nat :=
  daysBeforeYear 10000

example : daysInCalendar = 3652059 := rfl

theorem daysBefore_lt_daysInCalendar (date : Date) : date.daysBefore < daysInCalendar := by
  obtain ⟨⟨year_pos, year_le⟩, -⟩ := isDay_iff.mp date.valid
  exact Nat.lt_of_lt_of_le date.daysBefore_lt_nextYear (daysBeforeYear_le (by omega) (by omega))

/-- Each day but the last of the calendar is followed by a day with the next number: in its month,
on the first of the next month, or on the first of the next year. -/
theorem exists_next {date : Date} (later : date.daysBefore + 1 < daysInCalendar) :
    ∃ next : Date, next.daysBefore = date.daysBefore + 1 := by
  obtain ⟨⟨year_pos, year_le⟩, ⟨month_pos, month_le⟩, day_pos, day_le⟩ := isDay_iff.mp date.valid
  by_cases inMonth : date.day < daysInMonth date.year date.month
  · refine ⟨⟨date.year, date.month, date.day + 1, isDay_iff.mpr (by omega)⟩, ?_⟩
    simp only [daysBefore_eq]
    omega
  · have dayAtEnd : date.day = daysInMonth date.year date.month := by omega
    by_cases inYear : date.month < 12
    · have firstDay := daysInMonth_pos date.year (date.month + 1)
      refine ⟨⟨date.year, date.month + 1, 1, isDay_iff.mpr (by omega)⟩, ?_⟩
      simp only [daysBefore_eq, daysBeforeMonth_succ month_pos]
      omega
    · have monthAtEnd : date.month = 12 := by omega
      have yearAtEnd : daysBeforeYear (date.year + 1) = date.daysBefore + 1 := by
        rw [daysBeforeYear_succ year_pos, daysBeforeMonth_succ (by decide), daysBefore_eq]
        rw [monthAtEnd] at dayAtEnd ⊢
        omega
      have beforeEnd : date.year < 9999 := by
        refine Nat.lt_of_le_of_ne year_le fun last => ?_
        rw [last] at yearAtEnd
        exact absurd later (by rw [← yearAtEnd]; exact Nat.lt_irrefl _)
      have firstDay := daysInMonth_pos (date.year + 1) 1
      refine ⟨⟨date.year + 1, 1, 1, isDay_iff.mpr (by omega)⟩, ?_⟩
      rw [← yearAtEnd, daysBefore_eq, daysBeforeMonth_one]
      rfl

/-- No number is left out: each one below the number of all days is that of a day. -/
theorem exists_daysBefore {number : Nat} (bounded : number < daysInCalendar) :
    ∃ date : Date, date.daysBefore = number := by
  induction number with
  | zero => exact ⟨⟨1, 1, 1, rfl⟩, rfl⟩
  | succ number inductionHypothesis =>
    obtain ⟨date, rfl⟩ := inductionHypothesis (Nat.lt_of_succ_lt bounded)
    exact exists_next bounded

end Date

namespace Moment

/-! ## Moments by their seconds -/

/-- The bounds of a time of day, and of its distance from the standard time. -/
theorem isTime_iff {hour minute second microsecond : Nat} {offset? : Option Int} :
    isTime hour minute second microsecond offset? = true ↔
      hour < 24 ∧ minute < 60 ∧ second < 60 ∧ microsecond < 1000000 ∧
        ∀ offset ∈ offset?, offset.natAbs < secondsPerDay := by
  simp [isTime, and_assoc, Option.all_eq_true]

/-- The local seconds of a moment tell its day and its time of day. -/
theorem localSeconds_inj {left right : Moment} :
    left.localSeconds = right.localSeconds ↔
      left.date = right.date ∧ left.hour = right.hour ∧ left.minute = right.minute ∧
        left.second = right.second := by
  obtain ⟨hour, minute, second, -⟩ := isTime_iff.mp left.valid
  obtain ⟨hour', minute', second', -⟩ := isTime_iff.mp right.valid
  rw [← Date.daysBefore_inj]
  unfold localSeconds secondsPerDay
  omega

/-- The instant of a moment, as far as it is known: in seconds of standard time. -/
def instant? (moment : Moment) : Option Int :=
  moment.offset?.map fun offset => (moment.localSeconds : Int) - offset

/-- Moments with a distance from the standard time are the same if they are one instant; those
without if their local times are the same. -/
theorem same_iff {left right : Moment} :
    left.same right = true ↔
      left.microsecond = right.microsecond ∧ left.instant? = right.instant? ∧
        (left.offset? = none → left.localSeconds = right.localSeconds) := by
  unfold same instant?
  cases left.offset? <;> cases right.offset? <;> simp

theorem same_refl (moment : Moment) : moment.same moment = true :=
  same_iff.mpr ⟨rfl, rfl, fun _ => rfl⟩

private theorem offset?_eq_none_iff {left right : Moment}
    (instants : left.instant? = right.instant?) : left.offset? = none ↔ right.offset? = none := by
  simpa [instant?] using congrArg (· = none) instants

theorem same_symm {left right : Moment} (same : left.same right = true) :
    right.same left = true := by
  obtain ⟨microseconds, instants, seconds⟩ := same_iff.mp same
  refine same_iff.mpr ⟨microseconds.symm, instants.symm, fun unknown => ?_⟩
  exact (seconds ((offset?_eq_none_iff instants).mpr unknown)).symm

/-- Being the same moment is transitive, also where a distance from the standard time is unknown. -/
theorem same_trans {left middle right : Moment} (first : left.same middle = true)
    (second : middle.same right = true) : left.same right = true := by
  obtain ⟨microseconds, instants, seconds⟩ := same_iff.mp first
  obtain ⟨microseconds', instants', seconds'⟩ := same_iff.mp second
  refine same_iff.mpr ⟨microseconds.trans microseconds', instants.trans instants', ?_⟩
  intro unknown
  exact (seconds unknown).trans (seconds' ((offset?_eq_none_iff instants).mp unknown))

/-- At one distance from the standard time, moments that are the same agree in everything. -/
theorem same_iff_eq {left right : Moment} (offsets : left.offset? = right.offset?) :
    left.same right = true ↔ left = right := by
  refine ⟨fun same => ?_, fun equal => equal ▸ left.same_refl⟩
  obtain ⟨microseconds, instants, seconds⟩ := same_iff.mp same
  have localSeconds : left.localSeconds = right.localSeconds := by
    cases known : left.offset? with
    | none => exact seconds known
    | some offset =>
      rw [instant?, instant?, ← offsets, known] at instants
      exact Int.ofNat.inj (by simpa using instants)
  obtain ⟨dates, hours, minutes, wholeSeconds⟩ := localSeconds_inj.mp localSeconds
  cases left
  cases right
  simp_all

end Moment

end Rulebook
