/-! The Gregorian calendar, extended backwards: days as numbers from the first of
January 1970 and as year, month and day. -/

namespace QuorumWarden.Calendar

def isLeapYear (year : Int) : Bool := year % 4 == 0 && (year % 100 != 0 || year % 400 == 0)

def daysInMonth (year : Int) : Nat → Nat
  | 1 | 3 | 5 | 7 | 8 | 10 | 12 => 31
  | 4 | 6 | 9 | 11 => 30
  | 2 => if isLeapYear year then 29 else 28
  | _ => 0

/-- The years whose days the clock can name. -/
def firstYear : Int := -262143

def lastYear : Int := 262142

structure Date where
  year : Int
  month : Nat
  day : Nat
  deriving DecidableEq, Repr

def Date.isValid (date : Date) : Bool :=
  decide (firstYear ≤ date.year ∧ date.year ≤ lastYear ∧ 1 ≤ date.day ∧ date.day ≤ daysInMonth date.year date.month)

/-- Years are taken to begin in March, so that a leap day ends one. -/
def Date.number (date : Date) : Int :=
  let year := if date.month ≤ 2 then date.year - 1 else date.year
  let month := (date.month + 9) % 12
  365 * year + year / 4 - year / 100 + year / 400 + ((153 * month + 2) / 5 : Nat) + (date.day : Int) - 719469

/-- Sunday is 0; the first of January 1970 was a Thursday. -/
def weekday (number : Int) : Nat := ((number + 4) % 7).toNat

/-- The date of a day number: 400 years have 146097 days. -/
def ofNumber (number : Int) : Date :=
  let shifted := number + 719468
  let era := shifted / 146097
  let dayOfEra := (shifted % 146097).toNat
  let yearOfEra := (dayOfEra - dayOfEra / 1460 + dayOfEra / 36524 - dayOfEra / 146096) / 365
  let dayOfYear := dayOfEra - (365 * yearOfEra + yearOfEra / 4 - yearOfEra / 100)
  let march := (5 * dayOfYear + 2) / 153
  let month := if march < 10 then march + 3 else march - 9
  let year := (yearOfEra : Int) + era * 400
  ⟨if month ≤ 2 then year + 1 else year, month, dayOfYear - (153 * march + 2) / 5 + 1⟩

def firstDay : Int := (⟨firstYear, 1, 1⟩ : Date).number

def lastDay : Int := (⟨lastYear, 12, 31⟩ : Date).number

example : (⟨1970, 1, 1⟩ : Date).number = 0 ∧ weekday 0 = 4 ∧ ofNumber 0 = ⟨1970, 1, 1⟩ := by decide

example : (⟨2000, 2, 29⟩ : Date).number = 11016 ∧ ofNumber 11016 = ⟨2000, 2, 29⟩ := by decide

end QuorumWarden.Calendar
