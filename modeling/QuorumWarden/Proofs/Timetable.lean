import QuorumWarden.Watch.Loop

/-! When the ticks of a loop begin. A timetable knows nothing of programs: each tick begins at its deadline or, if the
tick before it ends later, at that end, and from when it begins follows the deadline of the next. -/

namespace QuorumWarden

namespace Loop

/-- The time from one tick to the next. -/
def period (interval : Nat) : Nat := max interval shortest

/-- A tick that has begun. One that was dropped has no outcome, and ends when it is dropped. -/
structure Tick where
  begins : Nat
  ends : Nat
  outcome : Option (Outcome Unit)

/-- These ticks have begun, the next one is due at such a time, and the last one has ended at such a time. -/
inductive Timetable (interval start : Nat) : List Tick → Nat → Nat → Prop where
  | start : Timetable interval start [] start start
  | tick {ticks deadline free ends} (before : Timetable interval start ticks deadline free)
      (onward : max deadline free ≤ ends) (outcome : Option (Outcome Unit)) :
      Timetable interval start (ticks ++ [⟨max deadline free, ends, outcome⟩])
        (nextDeadline interval deadline (max deadline free)) ends

variable {interval start deadline free : Nat} {ticks : List Tick}

theorem period_le_nextDeadline (interval deadline noticed : Nat) :
    deadline + period interval ≤ nextDeadline interval deadline noticed ∧
      noticed + period interval ≤ nextDeadline interval deadline noticed + tolerance := by
  simp only [nextDeadline, period]
  split <;> omega

theorem Timetable.of_nil (table : Timetable interval start [] deadline free) : deadline = start ∧ free = start := by
  generalize none : ([] : List Tick) = ticks at table
  cases table with
  | start => exact ⟨rfl, rfl⟩
  | tick => exact nomatch (List.append_eq_nil_iff.mp none.symm).2

/-- Slow ticks move the deadlines after them, but nothing brings one forward. -/
theorem Timetable.deadline_le (table : Timetable interval start ticks deadline free) :
    start + ticks.length * period interval ≤ deadline := by
  induction table with
  | start => simp
  | @tick ticks deadline free ends before onward outcome ih =>
    have later := (period_le_nextDeadline interval deadline (max deadline free)).1
    rw [List.length_append, List.length_singleton, Nat.succ_mul]
    omega

theorem Timetable.onward (table : Timetable interval start ticks deadline free) :
    ∀ tick ∈ ticks, tick.begins ≤ tick.ends := by
  induction table with
  | start => simp
  | tick before onward outcome ih => exact List.forall_mem_append.mpr ⟨ih, List.forall_mem_singleton.mpr onward⟩

theorem Timetable.apart_next (table : Timetable interval start ticks deadline free) :
    ∀ tick ∈ ticks, tick.ends ≤ free ∧ tick.begins + period interval ≤ deadline + tolerance := by
  induction table with
  | start => simp
  | @tick ticks deadline free ends before onward outcome ih =>
    obtain ⟨later, apart⟩ := period_le_nextDeadline interval deadline (max deadline free)
    refine List.forall_mem_append.mpr ⟨fun tick member => ?_, List.forall_mem_singleton.mpr ⟨Nat.le_refl _, apart⟩⟩
    obtain ⟨past, due⟩ := ih tick member
    omega

/-- Of two ticks the second begins after the first has ended, and not much earlier than a period after it began. -/
theorem Timetable.apart (table : Timetable interval start ticks deadline free) : ticks.Pairwise fun first second =>
    first.ends ≤ second.begins ∧ first.begins + period interval ≤ second.begins + tolerance := by
  induction table with
  | start => exact .nil
  | @tick ticks deadline free ends before onward outcome ih =>
    refine List.pairwise_append.mpr ⟨ih, List.pairwise_singleton _ _, fun tick member => ?_⟩
    obtain ⟨past, due⟩ := before.apart_next tick member
    simp only [List.mem_singleton, forall_eq]
    omega

/-- Where no tick takes longer than a period, the deadlines are those of the start. -/
theorem Timetable.punctual_next (table : Timetable interval start ticks deadline free)
    (quick : ∀ tick ∈ ticks, tick.ends ≤ tick.begins + period interval) :
    deadline = start + ticks.length * period interval ∧ free ≤ deadline := by
  induction table with
  | start => simp
  | @tick ticks deadline free ends before onward outcome ih =>
    obtain ⟨quick, last⟩ := List.forall_mem_append.mp quick
    obtain ⟨same, early⟩ := ih quick
    have last := List.forall_mem_singleton.mp last
    -- The tick before has ended by the deadline, so this one is noticed in time and moves nothing.
    have noticed : max deadline free = deadline := Nat.max_eq_left early
    have next : nextDeadline interval deadline deadline = deadline + period interval := by
      rw [nextDeadline, if_neg (by omega), period]
    simp only [noticed] at last ⊢
    rw [List.length_append, List.length_singleton, Nat.succ_mul, next]
    omega

/-- What comes before a tick says when it begins. -/
theorem Timetable.before (table : Timetable interval start ticks deadline free) {index : Nat} {tick : Tick}
    (found : ticks[index]? = some tick) : ∃ due free, Timetable interval start (ticks.take index) due free ∧
      (ticks.take index).length = index ∧ tick.begins = max due free := by
  induction table with
  | start => simp at found
  | @tick ticks deadline free ends before onward outcome ih =>
    rcases Nat.lt_trichotomy index ticks.length with inside | rfl | beyond
    · rw [List.getElem?_append_left inside] at found
      rw [List.take_append_of_le_length (Nat.le_of_lt inside)]
      exact ih found
    · rw [List.getElem?_append_right (Nat.le_refl _), Nat.sub_self] at found
      rw [List.take_append_of_le_length (Nat.le_refl _), List.take_length]
      cases found
      exact ⟨deadline, free, before, rfl, rfl⟩
    · rw [List.getElem?_eq_none (List.length_append ▸ Nat.succ_le_of_lt beyond)] at found
      cases found

theorem Timetable.not_before (table : Timetable interval start ticks deadline free) {index : Nat} {tick : Tick}
    (found : ticks[index]? = some tick) : start + index * period interval ≤ tick.begins := by
  obtain ⟨due, free, before, length, begins⟩ := table.before found
  have late := before.deadline_le
  rw [length] at late
  omega

/-- A tick begins on time if none before it has taken longer than a period. -/
theorem Timetable.punctual (table : Timetable interval start ticks deadline free) {index : Nat} {tick : Tick}
    (found : ticks[index]? = some tick)
    (quick : ∀ earlier ∈ ticks.take index, earlier.ends ≤ earlier.begins + period interval) :
    tick.begins = start + index * period interval := by
  obtain ⟨due, free, before, length, begins⟩ := table.before found
  obtain ⟨same, early⟩ := before.punctual_next quick
  rw [length] at same
  omega

/-- Ticks never overlap, none is early, and none is late but for a slow one before it. -/
structure Timely (interval start : Nat) (ticks : List Tick) : Prop where
  onward : ∀ tick ∈ ticks, tick.begins ≤ tick.ends
  apart : ticks.Pairwise fun first second =>
    first.ends ≤ second.begins ∧ first.begins + period interval ≤ second.begins + tolerance
  notBefore : ∀ {index tick}, ticks[index]? = some tick → start + index * period interval ≤ tick.begins
  punctual : ∀ {index tick}, ticks[index]? = some tick →
    (∀ earlier ∈ ticks.take index, earlier.ends ≤ earlier.begins + period interval) →
      tick.begins = start + index * period interval

theorem Timetable.timely (table : Timetable interval start ticks deadline free) : Timely interval start ticks :=
  ⟨table.onward, table.apart, table.not_before, table.punctual⟩

end Loop

end QuorumWarden
