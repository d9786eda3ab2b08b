import QuorumWarden.Backup.Due

/-! The latest of the times at which backups finished. Times are in one order, leap seconds among them, and the order of
the list does not count. -/

namespace QuorumWarden

namespace Timestamp

variable {first second third : Timestamp}

theorem before_iff : first.before second = true ↔
    first.seconds < second.seconds ∨ first.seconds = second.seconds ∧ first.nanos < second.nanos := by
  simp [before]

theorem not_before_self (time : Timestamp) : ¬time.before time := by
  rw [before_iff]
  omega

theorem not_before_trans (left : ¬first.before second) (right : ¬second.before third) : ¬first.before third := by
  rw [before_iff] at *
  omega

theorem eq_of_not_before (left : ¬first.before second) (right : ¬second.before first) : first = second := by
  rw [before_iff] at left right
  obtain ⟨_, _⟩ := first
  obtain ⟨_, _⟩ := second
  simp only [mk.injEq]
  dsimp only at left right
  omega

theorem later_among (first second : Timestamp) : first.later second = first ∨ first.later second = second := by
  rw [later]
  split
  · exact .inr rfl
  · exact .inl rfl

theorem not_later_before (first second : Timestamp) :
    ¬(first.later second).before first ∧ ¬(first.later second).before second := by
  rw [later]
  split
  next earlier => exact ⟨by rw [before_iff] at *; omega, second.not_before_self⟩
  next late => exact ⟨first.not_before_self, late⟩

end Timestamp

/-- One of these times, and none of them is later. -/
structure Last (times : List Timestamp) (last : Timestamp) : Prop where
  among : last ∈ times
  bound : ∀ time ∈ times, ¬last.before time

namespace Last

variable {times : List Timestamp} {last other : Timestamp}

theorem unique (one : Last times last) (two : Last times other) : last = other :=
  Timestamp.eq_of_not_before (one.bound other two.among) (two.bound last one.among)

theorem singleton (time : Timestamp) : Last [time] time :=
  ⟨List.mem_singleton_self time, List.forall_mem_singleton.mpr time.not_before_self⟩

/-- Only the later one of two times counts. -/
theorem of_later {first second : Timestamp} (latest : Last (first.later second :: times) last) :
    Last (first :: second :: times) last := by
  obtain ⟨top, bound⟩ := List.forall_mem_cons.mp latest.bound
  obtain ⟨left, right⟩ := first.not_later_before second
  refine ⟨?_, List.forall_mem_cons.mpr ⟨Timestamp.not_before_trans top left, List.forall_mem_cons.mpr
    ⟨Timestamp.not_before_trans top right, bound⟩⟩⟩
  rcases List.mem_cons.mp latest.among with rfl | there
  · rcases first.later_among second with same | same <;> simp [same]
  · simp [there]

end Last

namespace Backup

variable {backups : List BackupRecord} {last : Timestamp}

theorem last_of_foldl (first : Timestamp) (times : List Timestamp) : ∃ last, Last (first :: times) last ∧
    times.foldl (fun latest finished => some ((latest.map (·.later finished)).getD finished)) (some first) =
      some last := by
  induction times generalizing first with
  | nil => exact ⟨first, .singleton first, rfl⟩
  | cons next times ih =>
    obtain ⟨last, latest, folded⟩ := ih (first.later next)
    exact ⟨last, latest.of_later, folded⟩

theorem lastCompleted_eq_some_iff :
    lastCompleted backups = some last ↔ Last (backups.filterMap (·.finishedAt)) last := by
  rw [lastCompleted]
  cases backups.filterMap (·.finishedAt) with
  | nil => exact ⟨nofun, fun latest => nomatch latest.among⟩
  | cons first times =>
    obtain ⟨other, latest, folded⟩ := last_of_foldl first times
    rw [List.foldl_cons, Option.map_none, Option.getD_none, folded, Option.some.injEq]
    exact ⟨fun same => same ▸ latest, latest.unique⟩

theorem lastCompleted_eq_none_iff :
    lastCompleted backups = none ↔ ∀ backup ∈ backups, backup.finishedAt = none := by
  rw [← List.filterMap_eq_nil_iff, lastCompleted]
  cases backups.filterMap (·.finishedAt) with
  | nil => exact ⟨fun _ => rfl, fun _ => rfl⟩
  | cons first times =>
    obtain ⟨other, _, folded⟩ := last_of_foldl first times
    rw [List.foldl_cons, Option.map_none, Option.getD_none, folded]
    exact ⟨nofun, nofun⟩

end Backup

end QuorumWarden
