import QuorumWarden.Time.Timestamp

/-! Times as instants. Outside of leap seconds the arithmetic of times and lengths is that of whole numbers, exact to
the nanosecond, and only the calendar bounds it. -/

namespace QuorumWarden

namespace Timestamp

/-- Nanoseconds since the first of January 1970. -/
def instant (t : Timestamp) : Int := t.seconds * 1000000000 + t.nanos

/-- A time of the calendar that is in no leap second. -/
structure Regular (t : Timestamp) : Prop where
  fraction : t.nanos < 1000000000
  listed : t.inCalendar = true

/-- The calendar has no time at this instant or after it. -/
def calendarEnd : Int := (Calendar.lastDay + 1) * dayLength * 1000000000

def calendarStart : Int := Calendar.firstDay * dayLength * 1000000000

theorem calendarEnd_eq : calendarEnd = 8210266876800000000000 := by decide

theorem calendarStart_eq : calendarStart = -8334601228800000000000 := by decide

variable {a b t : Timestamp} {delta : TimeDelta}

theorem inCalendar_iff (fraction : t.nanos < 1000000000) :
    t.inCalendar = true ↔ calendarStart ≤ t.instant ∧ t.instant < calendarEnd := by
  refine decide_eq_true_iff.trans ?_
  simp only [calendarStart, calendarEnd, day, instant, dayLength]
  omega

theorem Regular.isLeap (regular : t.Regular) : t.isLeap = false := by
  have fraction := regular.fraction
  simp only [Timestamp.isLeap, decide_eq_false_iff_not]
  omega

theorem Regular.bounds (regular : t.Regular) : calendarStart ≤ t.instant ∧ t.instant < calendarEnd :=
  (inCalendar_iff regular.fraction).mp regular.listed

theorem Regular.before_iff (first : a.Regular) (second : b.Regular) : a.before b = true ↔ a.instant < b.instant := by
  have left := first.fraction
  have right := second.fraction
  simp only [before, instant, Bool.or_eq_true, Bool.and_eq_true, decide_eq_true_eq, beq_iff_eq]
  omega

theorem Regular.plus_fraction (regular : t.Regular) : (t.plus delta).nanos < 1000000000 := by
  simp only [plus, regular.isLeap, Bool.false_eq_true, if_false]
  omega

theorem Regular.instant_plus (regular : t.Regular) : (t.plus delta).instant = t.instant + delta := by
  have parts := Int.mul_tdiv_add_tmod delta 1000000000
  simp only [plus, regular.isLeap, Bool.false_eq_true, if_false, instant, TimeDelta.wholeSeconds,
    TimeDelta.subsecondNanos] at parts ⊢
  omega

/-- The sum is exact, unless the calendar has no such time. -/
theorem Regular.plus?_eq (regular : t.Regular) :
    t.plus? delta = if calendarStart ≤ t.instant + delta ∧ t.instant + delta < calendarEnd then some (t.plus delta)
      else none := by
  rw [plus?, ← regular.instant_plus]
  simp only [inCalendar_iff regular.plus_fraction]

theorem Regular.of_plus? (regular : t.Regular) {sum : Timestamp} (added : t.plus? delta = some sum) :
    sum.Regular ∧ sum.instant = t.instant + delta := by
  rw [plus?] at added
  split at added
  next listed =>
    cases added
    exact ⟨⟨regular.plus_fraction, listed⟩, regular.instant_plus⟩
  next => cases added

theorem Regular.minus_eq (first : a.Regular) (second : b.Regular) : a.minus b = a.instant - b.instant := by
  simp only [minus, first.isLeap, second.isLeap, Bool.false_eq_true, and_false, if_false, instant, day, secondOfDay,
    dayLength]
  change (_ : Int) = _
  omega

end Timestamp

namespace TimeDelta

/-- No longer than the longest length, in either direction. -/
def Fits (delta : TimeDelta) : Prop := -longest ≤ delta ∧ delta ≤ longest

theorem fits_ofDuration (duration : Duration) : (ofDuration duration).Fits := by
  change (_ : Int) ≤ _ ∧ (_ : Int) ≤ _
  simp only [ofDuration, longest]
  omega

end TimeDelta

end QuorumWarden
