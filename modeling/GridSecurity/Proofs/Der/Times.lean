import GridSecurity.Proofs.Calendar
import GridSecurity.Proofs.Der.Values
import Mathlib.Algebra.Group.Nat.Defs

/-!
# Times in order

The parts of a time are written from the year down to the second, each with a fixed number
of decimal digits.  So written times are in the order of their octets exactly if they are in
the order of the calendar, which is also the order of the seconds that are counted.
-/

namespace GridSecurity.Der.Time

/-! ## Digits -/

private theorem toNat_digit (value : Nat) :
    (UInt8.ofNat (48 + value % 10)).toNat = 48 + value % 10 :=
  UInt8.toNat_ofNat_of_lt' (by simp only [UInt8.size]; omega)

variable {places value other : Nat}

/-- Digits with something behind them are compared by their numbers first. -/
private theorem digits_append_lt_iff {rest further : Octets} (fits : value < 10 ^ places)
    (otherFits : other < 10 ^ places) :
    digits places value ++ rest < digits places other ++ further ↔
      value < other ∨ value = other ∧ rest < further := by
  induction places generalizing value other rest further with
  | zero =>
      obtain rfl : value = 0 := by omega
      obtain rfl : other = 0 := by omega
      simp [digits]
  | succ places induction =>
      rw [pow_succ] at fits otherFits
      rw [digits, digits, List.append_assoc, List.append_assoc, induction (by omega) (by omega),
        List.singleton_append, List.singleton_append, List.cons_lt_cons_iff,
        UInt8.lt_iff_toNat_lt, ← UInt8.toNat_inj, toNat_digit, toNat_digit]
      by_cases later : rest < further
      · simp only [later, and_true]
        omega
      · simp only [later, and_false, or_false]
        omega

/-! ## Written times -/

/-- Written times stand in the order of the calendar. -/
theorem content_lt_iff (time other : Time) :
    time.toElement.content < other.toElement.content ↔
      time.dateTime.parts < other.dateTime.parts := by
  have isTime := time.dateTime.isTime
  have otherIsTime := other.dateTime.isTime
  have month := time.dateTime.date.month_le
  have otherMonth := other.dateTime.date.month_le
  have day := time.dateTime.date.day_le
  have otherDay := other.dateTime.date.day_le
  have year := time.valid
  have otherYear := other.valid
  unfold isTimeYear at year otherYear
  rw [DateTime.parts_lt_iff, CalendarDate.parts_lt_iff, CalendarDate.eq_iff]
  simp only [toElement, List.append_assoc]
  -- Every part fits into its digits, so that the parts decide one after the other.
  rw [digits_append_lt_iff (by omega) (by omega), digits_append_lt_iff (by omega) (by omega),
    digits_append_lt_iff (by omega) (by omega), digits_append_lt_iff (by omega) (by omega),
    digits_append_lt_iff (by omega) (by omega), digits_append_lt_iff (by omega) (by omega)]
  have sameEnd : ¬ ([90] : Octets) < [90] := by decide
  simp only [sameEnd, and_false, or_false]
  omega

/-! ## Counted times -/

/-- Times are counted from zero to the last second of the year 9999. -/
theorem toUnix_bounds (time : Time) : 0 ≤ time.toUnix ∧ time.toUnix ≤ 253402300799 := by
  have isTime := time.dateTime.isTime
  have inYear := time.dateTime.date.daysBefore_lt
  have yearEnds := daysBeforeYear_succ time.dateTime.date.year
  have notBefore : daysBeforeYear 1970 ≤ daysBeforeYear time.dateTime.date.year :=
    daysBeforeYear_mono time.valid.1
  have notAfter : daysBeforeYear (time.dateTime.date.year + 1) ≤ daysBeforeYear 10000 :=
    daysBeforeYear_mono (Int.add_le_add_right time.valid.2 1)
  have allDays : daysBeforeYear 10000 - daysBeforeYear 1970 = 2932897 := by decide
  rw [toUnix, DateTime.toUnix, CalendarDate.toDays_eq]
  omega

end GridSecurity.Der.Time
