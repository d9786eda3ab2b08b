import Mathlib
import QuorumWarden.Time.Calendar

/-! Days counted one year and one month after another, from the first day of the year 1. The closed form by which dates
are numbered agrees with that count on every date. -/

namespace QuorumWarden.Calendar

/-- The days of so many months of a year. -/
def daysOfMonths (year : Int) : Nat → Nat
  | 0 => 0
  | months + 1 => daysOfMonths year months + daysInMonth year (months + 1)

/-- The days of so many years, the year 1 first. -/
def daysOfYears : Nat → Nat
  | 0 => 0
  | years + 1 => daysOfYears years + daysOfMonths (years + 1) 12

/-- The place of a date among all days: the first of January of the year 1 is the first. -/
def Date.ordinal (date : Date) : Nat :=
  daysOfYears (date.year.toNat - 1) + daysOfMonths date.year (date.month - 1) + date.day

/-- Sunday is 0. The first of all days is a Monday, and weekdays follow one another without a break. -/
def Date.dayOfWeek (date : Date) : Nat := date.ordinal % 7

theorem toNat_isLeapYear (year : Int) : ((isLeapYear year).toNat : Int) =
    (year / 4 - (year - 1) / 4) - (year / 100 - (year - 1) / 100) + (year / 400 - (year - 1) / 400) := by
  cases leap : isLeapYear year with
  | false =>
    simp only [isLeapYear, Bool.and_eq_false_iff, Bool.or_eq_false_iff, beq_eq_false_iff_ne, bne_eq_false_iff_eq] at leap
    rw [Bool.toNat_false]
    omega
  | true =>
    simp only [isLeapYear, Bool.and_eq_true, Bool.or_eq_true, beq_iff_eq, bne_iff_ne] at leap
    rw [Bool.toNat_true]
    omega

theorem daysOfMonths_twelve (year : Int) : daysOfMonths year 12 = 365 + (isLeapYear year).toNat := by
  cases leap : isLeapYear year <;> simp [daysOfMonths, daysInMonth, leap]

theorem daysOfYears_eq (years : Nat) :
    (daysOfYears years : Int) = 365 * years + years / 4 - years / 100 + years / 400 := by
  induction years with
  | zero => rfl
  | succ years ih =>
    have leap := toNat_isLeapYear (years + 1)
    rw [daysOfYears, daysOfMonths_twelve]
    push_cast
    omega

/-- In a year that begins in March the leap day is the last, and the lengths of the months follow one rule. -/
theorem daysOfMonths_eq (year : Int) {month : Nat} (first : 1 ≤ month) (last : month ≤ 12) :
    daysOfMonths year (month - 1) + (if month ≤ 2 then 306 else 0) =
      (153 * ((month + 9) % 12) + 2) / 5 + if month ≤ 2 then 0 else 59 + (isLeapYear year).toNat := by
  interval_cases month <;> cases leap : isLeapYear year <;> simp [daysOfMonths, daysInMonth, leap]

theorem Date.month_of_isValid {date : Date} (valid : date.isValid = true) : 1 ≤ date.month ∧ date.month ≤ 12 := by
  simp only [isValid, decide_eq_true_eq] at valid
  obtain ⟨_, _, first, last⟩ := valid
  revert first last
  fun_cases daysInMonth date.year date.month <;> omega

theorem Date.ordinal_eq {date : Date} (valid : date.isValid = true) (year : 1 ≤ date.year) :
    (date.ordinal : Int) = date.number + 719163 := by
  have before : ((date.year.toNat - 1 : Nat) : Int) = date.year - 1 := by omega
  have years := daysOfYears_eq (date.year.toNat - 1)
  rw [before] at years
  obtain ⟨first, last⟩ := month_of_isValid valid
  have months := daysOfMonths_eq date.year first last
  -- the quotients are left as they are: only their sum matters
  simp only [ordinal, number, Nat.cast_add, years]
  generalize (153 * ((date.month + 9) % 12) + 2) / 5 = march at months ⊢
  split
  next early =>
    rw [if_pos early, if_pos early] at months
    zify at months
    linarith
  next late =>
    rw [if_neg late, if_neg late] at months
    zify at months
    linarith [toNat_isLeapYear date.year]

/-- Counted from the first of January 1970, every date has its number. -/
theorem Date.number_eq_sub {date : Date} (valid : date.isValid = true) (year : 1 ≤ date.year) :
    date.number = date.ordinal - (⟨1970, 1, 1⟩ : Date).ordinal := by
  have epoch := @ordinal_eq ⟨1970, 1, 1⟩ (by decide) (by decide)
  have zero : (⟨1970, 1, 1⟩ : Date).number = 0 := by decide
  rw [epoch, zero, ordinal_eq valid year]
  omega

theorem Date.weekday_number {date : Date} (valid : date.isValid = true) (year : 1 ≤ date.year) :
    weekday date.number = date.dayOfWeek := by
  have count := ordinal_eq valid year
  rw [weekday, dayOfWeek]
  omega

end QuorumWarden.Calendar
