import KeySharing.Calendar
import Mathlib.Logic.Function.Iterate
import Mathlib.Tactic.IntervalCases

/-!
# The calendar day by day

The calendar numbers its dates by a formula that counts leap years and adds up months. Whether the
formula is right is a question about a rule that every reader knows: after a day comes the next day
of the month, after the last day of a month the next month, and after December the next year. So
the dates are counted here by this rule alone, and the number of a date turns out to be the number
of days that it takes to get there.

- `Calendar.LeapYear`, `Calendar.lastDay`: the lengths of years and months, said without tables.
- `Date.next`, `Date.afterEpoch`: the day after a date, and the date so many days after the first
  of January 1970.
- `Date.dayNumber_next`, `Date.dayNumber_afterEpoch`: one day is one number.
- `Date.before_iff`, `Date.dayNumber_inj`: numbers are in the order of the dates, and no two dates
  share one.
- `Date.afterEpoch_dayNumber`: every date from 1970 on is reached.
-/

namespace KeySharing

namespace Calendar

/-! ## Months and years -/

/-- The years with a day more: those that four divides, and of the full centuries those that four
hundred divides. -/
def LeapYear (year : Int) : Prop := 4 ∣ year ∧ (100 ∣ year → 400 ∣ year)

instance (year : Int) : Decidable (LeapYear year) := inferInstanceAs (Decidable (_ ∧ (_ → _)))

/-- The last day of a month. -/
def lastDay (year : Int) : (month : Nat) → Nat
  | 2 => if LeapYear year then 29 else 28
  | 4 | 6 | 9 | 11 => 30
  | _ => 31

section
variable {year year' : Int} {month month' : Nat}

theorem isLeap_iff : isLeap year = true ↔ LeapYear year := by
  simp only [isLeap, LeapYear, Bool.and_eq_true, Bool.or_eq_true, decide_eq_true_eq, bne_iff_ne]
  omega

theorem lastDay_bounds (year : Int) (month : Nat) :
    1 ≤ lastDay year month ∧ lastDay year month ≤ 31 := by
  unfold lastDay
  split
  · split <;> decide
  all_goals decide

theorem daysInMonth_eq_lastDay (h : 1 ≤ month) (h' : month ≤ 12) :
    daysInMonth year month = lastDay year month := by
  unfold daysInMonth lastDay
  simp only [← isLeap_iff]
  cases isLeap year <;> interval_cases month <;> rfl

/-- Only the twelve months have days. -/
theorem month_bounds (h : 0 < daysInMonth year month) : 1 ≤ month ∧ month ≤ 12 := by
  unfold daysInMonth at h
  split at h
  · omega
  · by_contra hmonth
    have hlong : (monthLengths (isLeap year)).length ≤ month - 1 := by
      simp only [monthLengths, List.length_cons, List.length_nil]
      omega
    rw [List.getD_eq_getElem?_getD, List.getElem?_eq_none hlong] at h
    exact Nat.lt_irrefl 0 h

theorem daysBeforeMonth_succ (h : 1 ≤ month) (h' : month ≤ 12) :
    daysBeforeMonth year (month + 1) = daysBeforeMonth year month + daysInMonth year month := by
  unfold daysBeforeMonth daysInMonth
  cases isLeap year <;> interval_cases month <;> rfl

/-- A month is over when a later one starts; month 13 is the first one of the next year. -/
theorem daysBeforeMonth_add_le (h : 1 ≤ month) (hlt : month < month') (h' : month' ≤ 13) :
    daysBeforeMonth year month + daysInMonth year month ≤ daysBeforeMonth year month' := by
  induction month', hlt using Nat.le_induction with
  | base => rw [daysBeforeMonth_succ h (by omega)]
  | succ month' hlt ih =>
    have hbefore := ih (by omega)
    rw [daysBeforeMonth_succ (by omega) (by omega)]
    omega

/-- A year is as long as its twelve months. -/
theorem daysBeforeYear_succ (year : Int) :
    daysBeforeYear (year + 1) = daysBeforeYear year + daysBeforeMonth year 13 := by
  have hmonths : daysBeforeMonth year 13 = if LeapYear year then 366 else 365 := by
    simp only [← isLeap_iff]
    unfold daysBeforeMonth
    cases isLeap year <;> rfl
  rw [hmonths]
  unfold daysBeforeYear
  by_cases hleap : LeapYear year
  · rw [if_pos hleap]
    unfold LeapYear at hleap
    omega
  · rw [if_neg hleap]
    unfold LeapYear at hleap
    omega

theorem daysBeforeYear_mono (h : year ≤ year') : daysBeforeYear year ≤ daysBeforeYear year' := by
  unfold daysBeforeYear
  omega

end

end Calendar

namespace Date

open Calendar

/-- The day after a date. -/
def next (date : Date) : Date :=
  if date.day < lastDay date.year date.month then ⟨date.year, date.month, date.day + 1⟩
  else if date.month < 12 then ⟨date.year, date.month + 1, 1⟩
  else ⟨date.year + 1, 1, 1⟩

/-- The date so many days after the first of January 1970. -/
def afterEpoch (days : Nat) : Date := next^[days] ⟨1970, 1, 1⟩

variable {a b date : Date}

theorem isValid_iff : date.isValid = true ↔
    (1 ≤ date.month ∧ date.month ≤ 12) ∧
      1 ≤ date.day ∧ date.day ≤ lastDay date.year date.month := by
  rw [isValid, Bool.and_eq_true, decide_eq_true_eq, decide_eq_true_eq]
  constructor
  · rintro ⟨hday, hday'⟩
    have hmonth := month_bounds (Nat.lt_of_lt_of_le hday hday')
    rw [daysInMonth_eq_lastDay hmonth.1 hmonth.2] at hday'
    exact ⟨hmonth, hday, hday'⟩
  · rintro ⟨hmonth, hday, hday'⟩
    rw [daysInMonth_eq_lastDay hmonth.1 hmonth.2]
    exact ⟨hday, hday'⟩

/-! ## The next day -/

theorem isValid_next (h : date.isValid = true) : date.next.isValid = true := by
  obtain ⟨hmonth, hday, -⟩ := isValid_iff.mp h
  rw [isValid_iff]
  unfold next
  split
  · exact ⟨hmonth, Nat.le_succ_of_le hday, by assumption⟩
  split
  · exact ⟨⟨Nat.le_succ_of_le hmonth.1, by assumption⟩, Nat.le_refl 1, (lastDay_bounds _ _).1⟩
  · exact ⟨⟨Nat.le_refl 1, by simp⟩, Nat.le_refl 1, (lastDay_bounds _ _).1⟩

/-- The next day has the next number. -/
theorem dayNumber_next (h : date.isValid = true) : date.next.dayNumber = date.dayNumber + 1 := by
  obtain ⟨hmonth, hday, hday'⟩ := isValid_iff.mp h
  have hmonths : daysBeforeMonth date.year (date.month + 1) =
      daysBeforeMonth date.year date.month + lastDay date.year date.month := by
    rw [daysBeforeMonth_succ hmonth.1 hmonth.2, daysInMonth_eq_lastDay hmonth.1 hmonth.2]
  unfold next dayNumber
  split
  · simp only
    omega
  split
  · simp only
    omega
  · have hfirst : daysBeforeMonth (date.year + 1) 1 = 0 := rfl
    have hlast : date.month + 1 = 13 := by omega
    rw [hlast] at hmonths
    simp only [daysBeforeYear_succ, hfirst]
    omega

theorem isValid_afterEpoch (days : Nat) : (afterEpoch days).isValid = true := by
  induction days with
  | zero => decide
  | succ days ih =>
    rw [afterEpoch, Function.iterate_succ_apply']
    exact isValid_next ih

/-- The number of a date is the number of days that it takes to get there. -/
theorem dayNumber_afterEpoch (days : Nat) : (afterEpoch days).dayNumber = days := by
  induction days with
  | zero => decide
  | succ days ih =>
    rw [afterEpoch, Function.iterate_succ_apply', ← afterEpoch,
      dayNumber_next (isValid_afterEpoch days), ih]
    rfl

/-! ## The order of dates -/

/-- One date comes before another in the calendar. -/
def Before (a b : Date) : Prop :=
  a.year < b.year ∨ a.year = b.year ∧ (a.month < b.month ∨ a.month = b.month ∧ a.day < b.day)

theorem before_or_eq_or_before (a b : Date) : a.Before b ∨ a = b ∨ b.Before a := by
  cases a
  cases b
  simp only [Before, mk.injEq]
  omega

/-- A date is over when a later month starts. -/
theorem daysBeforeMonth_add_day_le {month : Nat} (h : date.isValid = true)
    (hlt : date.month < month) (hmonth : month ≤ 13) :
    daysBeforeMonth date.year date.month + date.day ≤ daysBeforeMonth date.year month := by
  obtain ⟨⟨hfirst, hlast⟩, -, hday⟩ := isValid_iff.mp h
  have hstart : daysBeforeMonth date.year date.month + daysInMonth date.year date.month ≤
      daysBeforeMonth date.year month := daysBeforeMonth_add_le hfirst hlt hmonth
  rw [daysInMonth_eq_lastDay hfirst hlast] at hstart
  omega

/-- The number of a date lies between the starts of its year and of the next one. -/
theorem dayNumber_bounds (h : date.isValid = true) :
    daysBeforeYear date.year ≤ date.dayNumber + daysBeforeYear 1970 ∧
      date.dayNumber + daysBeforeYear 1970 < daysBeforeYear (date.year + 1) := by
  obtain ⟨⟨-, hlast⟩, hday, -⟩ := isValid_iff.mp h
  have hrest : daysBeforeMonth date.year date.month + date.day ≤ daysBeforeMonth date.year 13 :=
    daysBeforeMonth_add_day_le h (by omega) (Nat.le_refl 13)
  rw [daysBeforeYear_succ]
  unfold dayNumber
  omega

theorem dayNumber_lt_of_before (ha : a.isValid = true) (hb : b.isValid = true) (h : a.Before b) :
    a.dayNumber < b.dayNumber := by
  rcases h with hyear | ⟨hyear, hmonth | ⟨hmonth, hday⟩⟩
  · have hstart := daysBeforeYear_mono (Int.add_one_le_of_lt hyear)
    have hend := (dayNumber_bounds ha).2
    have hstart' := (dayNumber_bounds hb).1
    omega
  · obtain ⟨⟨-, hlast⟩, hday, -⟩ := isValid_iff.mp hb
    have hrest := daysBeforeMonth_add_day_le ha hmonth (Nat.le_succ_of_le hlast)
    unfold dayNumber
    rw [← hyear]
    omega
  · unfold dayNumber
    rw [← hyear, ← hmonth]
    omega

/-- Dates are numbered in their order. -/
theorem before_iff (ha : a.isValid = true) (hb : b.isValid = true) :
    a.Before b ↔ a.dayNumber < b.dayNumber := by
  refine ⟨dayNumber_lt_of_before ha hb, fun h => ?_⟩
  rcases before_or_eq_or_before a b with hbefore | rfl | hbefore
  · exact hbefore
  · exact absurd h (Int.lt_irrefl _)
  · exact absurd h (Int.lt_asymm (dayNumber_lt_of_before hb ha hbefore))

/-- Different dates have different numbers. -/
theorem dayNumber_inj (ha : a.isValid = true) (hb : b.isValid = true) :
    a.dayNumber = b.dayNumber ↔ a = b := by
  refine ⟨fun h => ?_, congrArg dayNumber⟩
  rcases before_or_eq_or_before a b with hbefore | heq | hbefore
  · exact absurd h (Int.ne_of_lt (dayNumber_lt_of_before ha hb hbefore))
  · exact heq
  · exact absurd h.symm (Int.ne_of_lt (dayNumber_lt_of_before hb ha hbefore))

/-! ## The dates from 1970 on -/

theorem dayNumber_nonneg (h : date.isValid = true) (hyear : 1970 ≤ date.year) :
    0 ≤ date.dayNumber := by
  have hstart := daysBeforeYear_mono hyear
  have hnumber := (dayNumber_bounds h).1
  omega

/-- Every date from 1970 on is reached after as many days as its number says. -/
theorem afterEpoch_dayNumber (h : date.isValid = true) (hyear : 1970 ≤ date.year) :
    afterEpoch date.dayNumber.toNat = date := by
  rw [← dayNumber_inj (isValid_afterEpoch _) h, dayNumber_afterEpoch]
  exact Int.toNat_of_nonneg (dayNumber_nonneg h hyear)

theorem year_afterEpoch_ge (days : Nat) : 1970 ≤ (afterEpoch days).year := by
  by_contra hyear
  have hstart := daysBeforeYear_mono (Int.add_one_le_of_lt (Int.not_le.mp hyear))
  have hnumber := (dayNumber_bounds (isValid_afterEpoch days)).2
  rw [dayNumber_afterEpoch] at hnumber
  omega

/-- A date before the first of January of a later year has an earlier year. -/
theorem year_afterEpoch_lt {days : Nat} {year : Int}
    (h : days + daysBeforeYear 1970 < daysBeforeYear year) : (afterEpoch days).year < year := by
  by_contra hyear
  have hstart := daysBeforeYear_mono (Int.not_lt.mp hyear)
  have hnumber := (dayNumber_bounds (isValid_afterEpoch days)).1
  rw [dayNumber_afterEpoch] at hnumber
  omega

/-- The day after the 28th of February of a century, with and without a leap day. -/
example : next ⟨2000, 2, 28⟩ = ⟨2000, 2, 29⟩ ∧ next ⟨2100, 2, 28⟩ = ⟨2100, 3, 1⟩ := by decide

end Date

end KeySharing
