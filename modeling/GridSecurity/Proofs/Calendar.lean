import GridSecurity.Calendar
import Mathlib.Data.Int.Init
import Mathlib.Order.Monotone.Basic

/-!
# The order of the calendar

Dates and seconds are counted in the order of the calendar: what is later by its year, by
its month in the same year, and so on down to the second, has the greater number.  Nothing
is left out and nothing is counted twice, so that every number belongs to one second.
-/

namespace GridSecurity

/-- Lists that begin with as many items are compared by these first. -/
private theorem append_lt_append_iff {α : Type} [LT α] {front other rest further : List α}
    (sameLength : front.length = other.length) :
    front ++ rest < other ++ further ↔ front < other ∨ front = other ∧ rest < further := by
  induction front generalizing other with
  | nil =>
      obtain rfl := List.eq_nil_of_length_eq_zero sameLength.symm
      simp
  | cons first front induction =>
      cases other with
      | nil => cases sameLength
      | cons second other =>
          rw [List.cons_append, List.cons_append, List.cons_lt_cons_iff, List.cons_lt_cons_iff,
            induction (Nat.succ.inj sameLength), List.cons.injEq, and_or_left, or_assoc, and_assoc]

/-! ## Years and months -/

theorem isLeapYear_iff {year : Int} :
    isLeapYear year = true ↔ year % 4 = 0 ∧ (year % 100 ≠ 0 ∨ year % 400 = 0) := by
  simp [isLeapYear]

private theorem daysBeforeMonth_thirteen (year : Int) :
    daysBeforeMonth year 13 = if isLeapYear year then 366 else 365 := by
  simp only [daysBeforeMonth, daysInMonth]
  split <;> rfl

/-- A year has the days of its twelve months. -/
theorem daysBeforeYear_succ (year : Int) :
    daysBeforeYear (year + 1) = daysBeforeYear year + daysBeforeMonth year 13 := by
  rw [daysBeforeMonth_thirteen, daysBeforeYear, daysBeforeYear]
  by_cases leap : isLeapYear year = true
  · rw [if_pos leap]
    rw [isLeapYear_iff] at leap
    omega
  · rw [if_neg leap]
    rw [isLeapYear_iff] at leap
    omega

theorem daysBeforeYear_mono {year later : Int} (notEarlier : year ≤ later) :
    daysBeforeYear year ≤ daysBeforeYear later := by
  have monotone : Monotone daysBeforeYear := by
    apply monotone_int_of_le_succ
    intro year
    rw [daysBeforeYear_succ]
    omega
  exact monotone notEarlier

private theorem daysBeforeMonth_mono (year : Int) : Monotone (daysBeforeMonth year) :=
  monotone_nat_of_le_succ fun _ => Nat.le_add_right _ _

/-- Every day is in a year. -/
theorem exists_year (days : Int) :
    ∃ year, daysBeforeYear year ≤ days ∧ days < daysBeforeYear (year + 1) := by
  have rises (year : Int) : daysBeforeYear year < daysBeforeYear (year + 1) := by
    rw [daysBeforeYear_succ, daysBeforeMonth_thirteen]
    split <;> omega
  -- From the first day of the year zero to later and to earlier days; each step stays in the
  -- year or goes over to the one next to it.
  induction days using Int.induction_on with
  | zero => exact ⟨0, by decide, by decide⟩
  | succ days induction =>
      obtain ⟨year, begun, notEnded⟩ := induction
      by_cases stillInYear : (days : Int) + 1 < daysBeforeYear (year + 1)
      · exact ⟨year, by omega, stillInYear⟩
      · have nextRises := rises (year + 1)
        exact ⟨year + 1, by omega, by omega⟩
  | pred days induction =>
      obtain ⟨year, begun, notEnded⟩ := induction
      by_cases stillInYear : daysBeforeYear year ≤ -(days : Int) - 1
      · exact ⟨year, stillInYear, by omega⟩
      · have previousRises := rises (year - 1)
        rw [Int.sub_add_cancel] at previousRises
        exact ⟨year - 1, by omega, by rw [Int.sub_add_cancel]; omega⟩

/-- Every day of the first months of a year is in one of them. -/
theorem exists_month {year : Int} {day months : Nat} (inside : day < daysBeforeMonth year months) :
    ∃ month, daysBeforeMonth year month ≤ day ∧ day < daysBeforeMonth year (month + 1) := by
  induction months with
  | zero => exact absurd inside (Nat.not_lt_zero day)
  | succ months induction =>
      by_cases before : day < daysBeforeMonth year months
      · exact induction before
      · exact ⟨months, Nat.le_of_not_lt before, inside⟩

/-- Only the months from one to twelve have days. -/
private theorem month_bounds {year : Int} {month : Nat} (hasDays : 1 ≤ daysInMonth year month) :
    1 ≤ month ∧ month ≤ 12 := by
  unfold daysInMonth at hasDays
  split at hasDays <;> omega

private theorem daysInMonth_le (year : Int) (month : Nat) : daysInMonth year month ≤ 31 := by
  unfold daysInMonth
  repeat' split
  all_goals omega

namespace CalendarDate

variable (date other : CalendarDate)

theorem month_le : date.month ≤ 12 :=
  (month_bounds (Nat.le_trans date.isDay.1 date.isDay.2)).2

theorem day_le : date.day ≤ 31 := Nat.le_trans date.isDay.2 (daysInMonth_le _ _)

/-- The parts of a date in the order in which dates are compared. -/
def parts : List Int := [date.year, date.month, date.day]

/-- The days of the year before a date. -/
def daysBefore : Nat := daysBeforeMonth date.year date.month + (date.day - 1)

theorem toDays_eq :
    date.toDays = daysBeforeYear date.year + date.daysBefore - daysBeforeYear 1970 := by
  have begun := date.isDay.1
  rw [toDays, daysBefore]
  omega

private theorem daysBefore_lt_next :
    date.daysBefore < daysBeforeMonth date.year (date.month + 1) := by
  have isDay := date.isDay
  rw [daysBefore, daysBeforeMonth]
  omega

theorem daysBefore_lt : date.daysBefore < daysBeforeMonth date.year 13 :=
  Nat.lt_of_lt_of_le date.daysBefore_lt_next
    (daysBeforeMonth_mono date.year (Nat.succ_le_succ date.month_le))

variable {date other}

theorem parts_lt_iff : date.parts < other.parts ↔
    date.year < other.year ∨ date.year = other.year ∧
      (date.month < other.month ∨ date.month = other.month ∧ date.day < other.day) := by
  simp only [parts, List.cons_lt_cons_iff, List.not_lt_nil, and_false, or_false]
  omega

theorem eq_iff :
    date = other ↔ date.year = other.year ∧ date.month = other.month ∧ date.day = other.day := by
  constructor
  · rintro rfl
    exact ⟨rfl, rfl, rfl⟩
  · obtain ⟨year, month, day, isDay⟩ := date
    obtain ⟨otherYear, otherMonth, otherDay, otherIsDay⟩ := other
    rintro ⟨rfl, rfl, rfl⟩
    rfl

private theorem daysBefore_lt_of_month_lt (sameYear : date.year = other.year)
    (earlier : date.month < other.month) : date.daysBefore < other.daysBefore :=
  calc
    date.daysBefore < daysBeforeMonth date.year (date.month + 1) := date.daysBefore_lt_next
    _ ≤ daysBeforeMonth date.year other.month := daysBeforeMonth_mono date.year earlier
    _ = daysBeforeMonth other.year other.month := by rw [sameYear]
    _ ≤ other.daysBefore := Nat.le_add_right _ _

private theorem daysBefore_lt_iff (sameYear : date.year = other.year) :
    date.daysBefore < other.daysBefore ↔
      date.month < other.month ∨ date.month = other.month ∧ date.day < other.day := by
  rcases Nat.lt_trichotomy date.month other.month with earlier | same | later
  · have before := daysBefore_lt_of_month_lt sameYear earlier
    omega
  · have begun := date.isDay.1
    have otherBegun := other.isDay.1
    rw [daysBefore, daysBefore, sameYear, same]
    omega
  · have behind := daysBefore_lt_of_month_lt sameYear.symm later
    omega

/-- Dates are counted in the order of the calendar. -/
theorem toDays_lt_iff : date.toDays < other.toDays ↔ date.parts < other.parts := by
  rw [parts_lt_iff, toDays_eq, toDays_eq]
  have inYear := date.daysBefore_lt
  have otherInYear := other.daysBefore_lt
  have yearEnds := daysBeforeYear_succ date.year
  have otherYearEnds := daysBeforeYear_succ other.year
  rcases Int.lt_trichotomy date.year other.year with earlier | same | later
  · have apart := daysBeforeYear_mono (Int.add_one_le_iff.mpr earlier)
    omega
  · rw [← daysBefore_lt_iff same, same]
    omega
  · have apart := daysBeforeYear_mono (Int.add_one_le_iff.mpr later)
    omega

theorem toDays_eq_iff : date.toDays = other.toDays ↔ date = other := by
  constructor
  · intro same
    have notEarlier : ¬ date.parts < other.parts := by
      rw [← toDays_lt_iff]
      omega
    have notLater : ¬ other.parts < date.parts := by
      rw [← toDays_lt_iff]
      omega
    rw [parts_lt_iff] at notEarlier notLater
    rw [eq_iff]
    omega
  · rintro rfl
    rfl

/-- Every number of days is that of a date. -/
theorem exists_toDays (days : Int) : ∃ date : CalendarDate, date.toDays = days := by
  obtain ⟨year, begun, notEnded⟩ := exists_year (days + daysBeforeYear 1970)
  have isDayOfYear : (days + daysBeforeYear 1970 - daysBeforeYear year).toNat <
      daysBeforeMonth year 13 := by
    rw [daysBeforeYear_succ] at notEnded
    omega
  obtain ⟨month, monthBegun, monthNotEnded⟩ := exists_month isDayOfYear
  rw [daysBeforeMonth] at monthNotEnded
  refine ⟨{
    year := year
    month := month
    day := (days + daysBeforeYear 1970 - daysBeforeYear year).toNat
      - daysBeforeMonth year month + 1
    isDay := by omega }, ?_⟩
  simp only [toDays]
  omega

end CalendarDate

/-! ## Seconds -/

namespace DateTime

variable (time other : DateTime)

/-- The parts of a second in the order in which times are compared. -/
def parts : List Int := time.date.parts ++ [(time.hour : Int), time.minute, time.second]

variable {time other}

theorem parts_lt_iff : time.parts < other.parts ↔
    time.date.parts < other.date.parts ∨ time.date = other.date ∧
      (time.hour < other.hour ∨ time.hour = other.hour ∧
        (time.minute < other.minute ∨
          time.minute = other.minute ∧ time.second < other.second)) := by
  have sameDate : time.date.parts = other.date.parts ↔ time.date = other.date := by
    simp only [CalendarDate.parts, CalendarDate.eq_iff, List.cons.injEq, and_true]
    omega
  have sameLength : time.date.parts.length = other.date.parts.length := rfl
  rw [parts, parts, append_lt_append_iff sameLength, sameDate]
  refine or_congr_right (and_congr_right fun _ => ?_)
  simp only [List.cons_lt_cons_iff, List.not_lt_nil, and_false, or_false]
  omega

/-- Seconds are counted in the order of the calendar. -/
theorem toUnix_lt_iff : time.toUnix < other.toUnix ↔ time.parts < other.parts := by
  rw [parts_lt_iff, ← CalendarDate.toDays_lt_iff, ← CalendarDate.toDays_eq_iff, toUnix, toUnix]
  have isTime := time.isTime
  have otherIsTime := other.isTime
  omega

theorem toUnix_eq_iff : time.toUnix = other.toUnix ↔ time = other := by
  constructor
  · intro same
    obtain ⟨date, hour, minute, second, isTime⟩ := time
    obtain ⟨otherDate, otherHour, otherMinute, otherSecond, otherIsTime⟩ := other
    simp only [toUnix] at same
    obtain rfl : date = otherDate := by
      rw [← CalendarDate.toDays_eq_iff]
      omega
    obtain ⟨rfl, rfl, rfl⟩ : hour = otherHour ∧ minute = otherMinute ∧ second = otherSecond := by
      omega
    rfl
  · rintro rfl
    rfl

/-- Every number of seconds is that of one second of the calendar. -/
theorem exists_toUnix_eq_iff (seconds : Int) :
    ∃ time : DateTime, ∀ other : DateTime, other.toUnix = seconds ↔ other = time := by
  obtain ⟨date, days⟩ := CalendarDate.exists_toDays (seconds / 86400)
  obtain ⟨time, counted⟩ : ∃ time : DateTime, time.toUnix = seconds := by
    refine ⟨{
      date := date
      hour := (seconds % 86400).toNat / 3600
      minute := (seconds % 86400).toNat / 60 % 60
      second := (seconds % 86400).toNat % 60
      isTime := by omega }, ?_⟩
    simp only [toUnix, days]
    omega
  refine ⟨time, ?_⟩
  intro other
  rw [← counted, toUnix_eq_iff]

end DateTime

end GridSecurity
