import Mathlib
import QuorumWarden.Backup.Listing
import QuorumWarden.Proofs.DayCount
import QuorumWarden.Proofs.PrintedTexts

/-! Times as they are printed. The reader finds the moment again, whatever blanks stand between its fields, and refuses
every weekday but that of the date. -/

namespace QuorumWarden

/-- A date of the years 1 to 9999 and a time of its day in whole seconds; a second of 60 is a leap second. -/
structure Moment where
  date : Calendar.Date
  hour : Fin 24
  minute : Fin 60
  second : Fin 61
  firstYear : 1 ≤ date.year
  lastYear : date.year ≤ 9999
  firstDay : 1 ≤ date.day
  lastDay : date.day ≤ Calendar.daysInMonth date.year date.month

def weekdayNames : Vector String 7 := #v["Sun", "Mon", "Tue", "Wed", "Thu", "Fri", "Sat"]

def monthNames : List String := ["Jan", "Feb", "Mar", "Apr", "May", "Jun", "Jul", "Aug", "Sep", "Oct", "Nov", "Dec"]

namespace Moment

variable (moment : Moment)

/-- Days are counted from the first of January 1970. A leap second is the second before it once more. -/
def timestamp : Timestamp where
  seconds := ((moment.date.ordinal : Int) - (⟨1970, 1, 1⟩ : Calendar.Date).ordinal) * 86400 +
    moment.hour * 3600 + moment.minute * 60 + min moment.second 59
  nanos := if moment.second = 60 then 1000000000 else 0

/-- Weekday, month, day, time of day and year. A blank that pads the day is one more between two fields. -/
def fields (weekday : Fin 7) (dayWidth : Nat) : List (List Char) :=
  [weekdayNames[weekday].toList, monthNames[moment.date.month - 1]!.toList, Text.fixed dayWidth moment.date.day,
    Text.fixed 2 moment.hour ++ ':' :: Text.fixed 2 moment.minute ++ ':' :: Text.fixed 2 moment.second,
    Text.fixed 4 moment.date.year.toNat]

theorem isValid_date : moment.date.isValid = true := by
  have first : Calendar.firstYear ≤ moment.date.year := le_trans (by decide) moment.firstYear
  have last : moment.date.year ≤ Calendar.lastYear := le_trans moment.lastYear (by decide)
  rw [Calendar.Date.isValid, decide_eq_true_eq]
  exact ⟨first, last, moment.firstDay, moment.lastDay⟩

theorem day_le : moment.date.day ≤ 31 := by
  refine le_trans moment.lastDay ?_
  fun_cases Calendar.daysInMonth moment.date.year moment.date.month <;> omega

theorem timestamp_eq :
    Ctime.timestamp moment.date.number moment.hour moment.minute moment.second = moment.timestamp := by
  have second := moment.second.isLt
  rw [Ctime.timestamp, timestamp, Calendar.Date.number_eq_sub moment.isValid_date moment.firstYear]
  generalize (moment.date.ordinal : Int) - (⟨1970, 1, 1⟩ : Calendar.Date).ordinal = day
  by_cases leap : moment.second = 60
  · simp [leap]
    ring
  · have regular : ¬ (moment.second : Nat) = 60 := fun same => leap (Fin.ext same)
    have early : (moment.second : Nat) ≤ 59 := by omega
    simp [leap, regular, early]
    ring

end Moment

namespace Ctime

open Text (fixed)

theorem name?_append {names : List String} {name : List Char} (three : name.length = 3) (rest : List Char) :
    name? names (name ++ rest) =
      (names.findIdx? (· == String.ofList (name.map Char.toLower))).map fun index => (index, rest) := by
  rw [name?, List.take_left' three, List.drop_left' three]

theorem name?_weekday (weekday : Fin 7) (rest : List Char) :
    name? weekdays (weekdayNames[weekday].toList ++ rest) = some (weekday.val, rest) := by
  have three : weekdayNames[weekday].toList.length = 3 := by revert weekday; decide
  have found : weekdays.findIdx? (· == String.ofList (weekdayNames[weekday].toList.map Char.toLower)) =
      some weekday.val := by revert weekday; decide
  rw [name?_append three, found, Option.map_some]

theorem name?_month {month : Nat} (first : 1 ≤ month) (last : month ≤ 12) (rest : List Char) :
    name? months (monthNames[month - 1]!.toList ++ rest) = some (month - 1, rest) := by
  have three : monthNames[month - 1]!.toList.length = 3 := by interval_cases month <;> decide
  have found : months.findIdx? (· == String.ofList (monthNames[month - 1]!.toList.map Char.toLower)) =
      some (month - 1) := by interval_cases month <;> decide
  rw [name?_append three, found, Option.map_some]

/-- The digits end where they are as many as the reader takes, or before anything else. -/
theorem number?_fixed {width most n : Nat} {rest : List Char} (some : 0 < width) (fits : n < 10 ^ width)
    (within : width ≤ most) (ends : width = most ∨ ∀ c ∈ rest.head?, c.isDigit = false) :
    number? most (fixed width n ++ rest) = .some (n, rest) := by
  have beyond : (rest.take (most - width)).takeWhile Char.isDigit = [] := by
    obtain rfl | apart := ends
    · simp
    · cases rest with
      | nil => simp
      | cons c rest =>
        have other : c.isDigit = false := apart c rfl
        cases most - width <;> simp [other]
  have digits : ((fixed width n ++ rest).take most).takeWhile Char.isDigit = fixed width n := by
    rw [List.take_append, List.take_of_length_le (by simpa using within), Text.length_fixed,
      List.takeWhile_append_of_pos Text.isDigit_of_mem_fixed, beyond, List.append_nil]
  simp only [number?, Text.trimStart_of_solid (Text.solid_fixed some n), digits, Text.digits?_fixed some fits,
    Option.map_some, List.drop_left' rfl]

theorem field?_fixed {low high width n : Nat} {rest : List Char} (some : 0 < width) (within : width ≤ 2)
    (fits : n < 10 ^ width) (ends : width = 2 ∨ ∀ c ∈ rest.head?, c.isDigit = false) (first : low ≤ n) (last : n ≤ high) :
    field? low high (fixed width n ++ rest) = .some (n, rest) := by
  rw [field?, number?_fixed some fits within ends, Option.filter_some, if_pos (by simpa using ⟨first, last⟩)]

/-- A field of two digits. -/
theorem field?_two {high n : Nat} (last : n ≤ high) (two : high < 100) (rest : List Char) :
    field? 0 high (fixed 2 n ++ rest) = some (n, rest) :=
  field?_fixed (by decide) le_rfl (by omega) (.inl rfl) (Nat.zero_le n) last

theorem field?_space (low high : Nat) (text : List Char) : field? low high (' ' :: text) = field? low high text := rfl

theorem year?_fixed {n : Nat} (fits : n < 10 ^ 4) : year? (' ' :: fixed 4 n) = some ((n : Int), []) := by
  have start : Text.trimStart (' ' :: fixed 4 n) = fixed 4 n := by
    simpa using Text.trimStart_of_solid (Text.solid_fixed (by decide : 0 < 4) n) []
  have unsigned (sign : Char) (other : sign.isDigit = false) (rest : List Char) : fixed 4 n ≠ sign :: rest := by
    intro same
    have digit : sign.isDigit = true := Text.isDigit_of_mem_fixed sign (by rw [same]; exact List.mem_cons_self)
    rw [digit] at other
    cases other
  have read : number? 4 (fixed 4 n ++ []) = some (n, []) := number?_fixed (by decide) fits le_rfl (.inl rfl)
  rw [List.append_nil] at read
  rw [year?, start]
  split
  next rest same => exact absurd same (unsigned '-' rfl rest)
  next rest same => exact absurd same (unsigned '+' rfl rest)
  next => rw [read, Option.map_some]

theorem solid_month {month : Nat} (first : 1 ≤ month) (last : month ≤ 12) :
    Text.Solid monthNames[month - 1]!.toList := by
  interval_cases month <;> exact Text.solid_of_isAlpha (by decide) (by decide)

/-- What is left to read once the blanks are single spaces. -/
theorem readFields?_fields (moment : Moment) (weekday : Fin 7) {width : Nat}
    (padded : width = 1 ∨ width = 2) (fits : moment.date.day < 10 ^ width) :
    readFields? ([' '].intercalate (moment.fields weekday width)) =
      if moment.date.dayOfWeek = weekday then some moment.timestamp else none := by
  obtain ⟨january, december⟩ := Calendar.Date.month_of_isValid moment.isValid_date
  have year : (moment.date.year.toNat : Int) = moment.date.year := Int.toNat_of_nonneg (by linarith [moment.firstYear])
  have yearFits : moment.date.year.toNat < 10 ^ 4 := by have := moment.lastYear; omega
  have text : [' '].intercalate (moment.fields weekday width) =
      weekdayNames[weekday].toList ++ (' ' :: (monthNames[moment.date.month - 1]!.toList ++
        (' ' :: (fixed width moment.date.day ++ (' ' :: (fixed 2 moment.hour ++ (':' :: (fixed 2 moment.minute ++
          (':' :: (fixed 2 moment.second ++ (' ' :: fixed 4 moment.date.year.toNat))))))))))) := by
    simp [Moment.fields, List.intercalate]
  have day : ∀ rest, field? 1 31 (fixed width moment.date.day ++ (' ' :: rest)) = some (moment.date.day, ' ' :: rest) :=
    fun rest => field?_fixed (by omega) (by omega) fits (.inr (by simp)) moment.firstDay moment.day_le
  have hour := field?_two (Nat.le_of_lt_succ moment.hour.isLt) (by decide)
  have minute := field?_two (Nat.le_of_lt_succ moment.minute.isLt) (by decide)
  have second := field?_two (Nat.le_of_lt_succ moment.second.isLt) (by decide)
  simp only [readFields?, text, name?_weekday, Option.bind_eq_bind, Option.bind_some, Text.trimStart_space,
    Text.trimStart_of_solid (solid_month january december), name?_month january december, field?_space, day, hour,
    minute, second, colon?, year?_fixed yearFits, year, Nat.sub_add_cancel january, List.isEmpty_nil, true_and,
    moment.isValid_date, Calendar.Date.weekday_number moment.isValid_date moment.firstYear, moment.timestamp_eq]

end Ctime

theorem readTime_printed (moment : Moment) (weekday : Fin 7) {width : Nat}
    (padded : width = 1 ∨ width = 2) (fits : moment.date.day < 10 ^ width) {text : String}
    (printed : Text.Spaced (moment.fields weekday width) text.toList) :
    (moment.date.dayOfWeek = weekday → Backup.readTime text = .ok moment.timestamp) ∧
    (moment.date.dayOfWeek ≠ weekday → ∃ cause : Failure, Backup.readTime text =
      .error (cause.within ("parse barman timestamp '" ++ text ++ "'"))) := by
  have read : Ctime.read? text = if moment.date.dayOfWeek = weekday then some moment.timestamp else none := by
    rw [Ctime.read?, Text.singleSpaced, Text.words_of_spaced printed, Ctime.readFields?_fields moment weekday padded fits]
  constructor
  · intro proper
    rw [Backup.readTime, read, if_pos proper]
  · intro other
    rw [Backup.readTime, read, if_neg other]
    exact ⟨_, rfl⟩

/-- The first of July 2023 was a Saturday. -/
def firstOfJuly : Moment where
  date := ⟨2023, 7, 1⟩
  hour := 3
  minute := 0
  second := 0
  firstYear := by decide
  lastYear := by decide
  firstDay := by decide
  lastDay := by decide

theorem readTime_printed_firstOfJuly :
    Backup.readTime "\tSat Jul  1\n03:00:00   2023 " = .ok ⟨1688180400, 0⟩ ∧
      ∃ cause : Failure, Backup.readTime "Sun Jul  1 03:00:00 2023" =
        .error (cause.within ("parse barman timestamp '" ++ "Sun Jul  1 03:00:00 2023" ++ "'")) := by
  have saturday : firstOfJuly.date.dayOfWeek = 6 := by
    rw [← Calendar.Date.weekday_number firstOfJuly.isValid_date firstOfJuly.firstYear]
    decide
  have instant : firstOfJuly.timestamp = ⟨1688180400, 0⟩ := by
    rw [← firstOfJuly.timestamp_eq]
    decide
  have proper : Text.Spaced (firstOfJuly.fields 6 1) "\tSat Jul  1\n03:00:00   2023 ".toList :=
    Text.spaced_iff.mpr (by decide)
  have other : Text.Spaced (firstOfJuly.fields 0 1) "Sun Jul  1 03:00:00 2023".toList :=
    Text.spaced_iff.mpr (by decide)
  rw [← instant]
  exact ⟨(readTime_printed firstOfJuly 6 (.inl rfl) (by decide) proper).1 saturday,
    (readTime_printed firstOfJuly 0 (.inl rfl) (by decide) other).2 (by rw [saturday]; decide)⟩

end QuorumWarden
