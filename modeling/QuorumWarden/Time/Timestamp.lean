import QuorumWarden.Time.Calendar
import QuorumWarden.Time.Duration

/-! Points in time, with leap seconds. A leap second is the last second of its minute
once more: its fraction runs on from one second to two. -/

namespace QuorumWarden

/-- Seconds from the first of January 1970 and nanoseconds within the second; from
1000000000 nanoseconds on it is the leap second that follows. -/
structure Timestamp where
  seconds : Int
  nanos : Nat
  deriving DecidableEq, Repr

/-- A signed length of time in nanoseconds. -/
abbrev TimeDelta := Int

namespace TimeDelta

/-- The longest length: 2^63 - 1 milliseconds. -/
def longest : TimeDelta := 9223372036854775807 * 1000000

/-- Whole seconds, cut toward zero. -/
def wholeSeconds (delta : TimeDelta) : Int := Int.tdiv delta 1000000000

/-- What is left of a length beside its whole seconds, with the sign of the length. -/
def subsecondNanos (delta : TimeDelta) : Int := Int.tmod delta 1000000000

/-- A length that is longer than the longest counts as the longest. -/
def ofDuration (duration : Duration) : TimeDelta := min (duration.nanos : Int) longest

end TimeDelta

namespace Timestamp

def dayLength : Int := 86400

def day (t : Timestamp) : Int := t.seconds / dayLength

def secondOfDay (t : Timestamp) : Int := t.seconds % dayLength

def isLeap (t : Timestamp) : Bool := 1000000000 ≤ t.nanos

def before (a b : Timestamp) : Bool := a.seconds < b.seconds || (a.seconds == b.seconds && a.nanos < b.nanos)

/-- The later of two; of two equal ones either. -/
def later (a b : Timestamp) : Timestamp := if a.before b then b else a

/-- The sum without regard to the calendar's end. A leap second is left only if the
change leads out of it; leaving it forward, the leap second itself takes no time. -/
def plus (t : Timestamp) (delta : TimeDelta) : Timestamp :=
  let seconds := TimeDelta.wholeSeconds delta
  let nanos := TimeDelta.subsecondNanos delta
  let carry (base : Int) (fraction : Int) : Timestamp :=
    ⟨base + seconds + (fraction + nanos) / 1000000000, ((fraction + nanos) % 1000000000).toNat⟩
  if t.isLeap then
    if 0 < seconds ∨ (0 < nanos ∧ 2000000000 ≤ (t.nanos : Int) + nanos) then
      carry t.seconds ((t.nanos : Int) - 1000000000)
    else if seconds < 0 then carry (t.seconds + 1) ((t.nanos : Int) - 1000000000)
    else ⟨t.seconds, ((t.nanos : Int) + nanos).toNat⟩
  else carry t.seconds t.nanos

def inCalendar (t : Timestamp) : Bool :=
  decide (Calendar.firstDay ≤ t.day ∧ t.day ≤ Calendar.lastDay)

/-- The sum, if the calendar has it. -/
def plus? (t : Timestamp) (delta : TimeDelta) : Option Timestamp :=
  let sum := t.plus delta
  if sum.inCalendar then some sum else none

/-- The length from `b` to `a`. Days and times of day are counted apart, and a leap
second between the two times of day takes its second. -/
def minus (a b : Timestamp) : TimeDelta :=
  let leap : Int :=
    if b.secondOfDay < a.secondOfDay ∧ b.isLeap then 1
    else if a.secondOfDay < b.secondOfDay ∧ a.isLeap then -1
    else 0
  ((a.day - b.day) * dayLength + (a.secondOfDay - b.secondOfDay) + leap) * 1000000000 +
    ((a.nanos : Int) - (b.nanos : Int))

def twoDigits (n : Nat) : String := if n < 10 then "0" ++ toString n else toString n

/-- Years from 0 to 9999 have four digits, others a sign and at least four. -/
def yearText (year : Int) : String :=
  let digits := toString year.natAbs
  let padded := String.ofList (List.replicate (4 - digits.length) '0') ++ digits
  if 0 ≤ year ∧ year ≤ 9999 then padded else (if year < 0 then "-" else "+") ++ padded

/-- Date and time of day in digits, with a `T` between them. -/
def compact (t : Timestamp) : String :=
  let date := Calendar.ofNumber t.day
  let second := t.secondOfDay.toNat
  yearText date.year ++ twoDigits date.month ++ twoDigits date.day ++ "T" ++
    twoDigits (second / 3600) ++ twoDigits (second / 60 % 60) ++
    twoDigits (second % 60 + if t.isLeap then 1 else 0)

end Timestamp

end QuorumWarden
