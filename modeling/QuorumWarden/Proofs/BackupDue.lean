import QuorumWarden.Proofs.BoundedRetry
import QuorumWarden.Proofs.Instants
import QuorumWarden.Proofs.LatestTimes
import QuorumWarden.Proofs.ScheduleEvaluation

/-! When a backup is due. The decision and the wait are those of exact arithmetic on instants, in whatever order the
backups are listed, and nothing on the way is too large to be counted. -/

namespace QuorumWarden

namespace Backup

variable {backups others : List BackupRecord} {last now : Timestamp} {frequency : Duration}

/-- All finishing times are such as exact arithmetic is about. -/
def Regular (backups : List BackupRecord) : Prop :=
  ∀ backup ∈ backups, ∀ finished, backup.finishedAt = some finished → finished.Regular

/-- No backup in the list has finished. -/
def NoneFinished (backups : List BackupRecord) : Prop := ∀ backup ∈ backups, backup.finishedAt = none

/-- The last time at which a backup in the list finished. -/
structure Latest (backups : List BackupRecord) (last : Timestamp) : Prop where
  listed : ∃ backup ∈ backups, backup.finishedAt = some last
  bound : ∀ backup ∈ backups, ∀ finished, backup.finishedAt = some finished → finished.instant ≤ last.instant

/-- A frequency has passed since the last backup, or there was none. -/
def Due (backups : List BackupRecord) (frequency : Duration) (now : Timestamp) : Prop :=
  NoneFinished backups ∨ ∃ last, Latest backups last ∧ last.instant + frequency.nanos ≤ now.instant

/-- The wait is over a frequency after the last backup. It is the longest there is if the calendar ends before that. -/
def Awaited (backups : List BackupRecord) (frequency : Duration) (now : Timestamp) (wait : Duration) : Prop :=
  ∃ last, Latest backups last ∧
    if last.instant + frequency.nanos < Timestamp.calendarEnd
    then now.instant + wait.nanos = last.instant + frequency.nanos
    else (wait.nanos : Int) = TimeDelta.longest

/-- What is counted with on the way can be counted: lengths are no longer than the longest, and the seconds of a sum fit
a machine word. -/
structure Countable (last : Timestamp) (frequency : Duration) (now : Timestamp) : Prop where
  length : (TimeDelta.ofDuration frequency).Fits
  sum : -9223372036854775808 ≤ (last.plus (TimeDelta.ofDuration frequency)).seconds ∧
    (last.plus (TimeDelta.ofDuration frequency)).seconds < 9223372036854775808
  difference : ∀ due, last.plus? (TimeDelta.ofDuration frequency) = some due → (due.minus now).Fits

theorem Latest.regular (latest : Latest backups last) (regular : Regular backups) : last.Regular := by
  obtain ⟨backup, listed, finished⟩ := latest.listed
  exact regular backup listed last finished

/-- Outside of leap seconds no time is later if none is at a later instant. -/
theorem latest_iff_last (regular : Regular backups) :
    Latest backups last ↔ Last (backups.filterMap (·.finishedAt)) last := by
  constructor
  · intro latest
    refine ⟨List.mem_filterMap.mpr latest.listed, fun time member earlier => ?_⟩
    obtain ⟨backup, listed, finished⟩ := List.mem_filterMap.mp member
    have other := regular backup listed time finished
    have above := ((latest.regular regular).before_iff other).mp earlier
    exact Int.not_lt.mpr (latest.bound backup listed time finished) above
  · rintro ⟨among, bound⟩
    obtain ⟨one, there, last⟩ := List.mem_filterMap.mp among
    refine ⟨⟨one, there, last⟩, fun backup listed time finished => Int.not_lt.mp fun above => ?_⟩
    have earlier := ((regular one there _ last).before_iff (regular backup listed time finished)).mpr above
    exact bound time (List.mem_filterMap.mpr ⟨backup, listed, finished⟩) earlier

theorem Latest.unique {other : Timestamp} (one : Latest backups last) (two : Latest backups other)
    (regular : Regular backups) : last = other :=
  ((latest_iff_last regular).mp one).unique ((latest_iff_last regular).mp two)

theorem lastCompleted_of_latest (latest : Latest backups last) (regular : Regular backups) :
    lastCompleted backups = some last := lastCompleted_eq_some_iff.mpr ((latest_iff_last regular).mp latest)

theorem lastCompleted_cases (regular : Regular backups) :
    NoneFinished backups ∧ lastCompleted backups = none ∨
      ∃ last, Latest backups last ∧ last.Regular ∧ lastCompleted backups = some last := by
  cases completed : lastCompleted backups with
  | none => exact Or.inl ⟨lastCompleted_eq_none_iff.mp completed, rfl⟩
  | some last =>
    have latest := (latest_iff_last regular).mpr (lastCompleted_eq_some_iff.mp completed)
    exact Or.inr ⟨last, latest, latest.regular regular, rfl⟩

theorem Latest.of_perm (latest : Latest backups last) (same : backups.Perm others) : Latest others last := by
  obtain ⟨backup, listed, finished⟩ := latest.listed
  exact ⟨⟨backup, same.mem_iff.mp listed, finished⟩, fun other among => latest.bound other (same.mem_iff.mpr among)⟩

theorem Latest.finished (latest : Latest backups last) : ¬NoneFinished backups := by
  obtain ⟨backup, listed, finished⟩ := latest.listed
  intro unfinished
  cases finished.symm.trans (unfinished backup listed)

/-- The order of the list does not count. -/
theorem lastCompleted_of_perm (regular : Regular backups) (same : backups.Perm others) :
    lastCompleted others = lastCompleted backups := by
  have alike : Regular others := fun backup listed => regular backup (same.mem_iff.mpr listed)
  rcases lastCompleted_cases regular with ⟨unfinished, none⟩ | ⟨last, latest, _, some⟩
  · rcases lastCompleted_cases alike with ⟨_, also⟩ | ⟨other, latest, _, _⟩
    · rw [none, also]
    · exact absurd unfinished (latest.of_perm same.symm).finished
  · rw [some, lastCompleted_of_latest (latest.of_perm same) alike]

/-- A frequency too long to be counted leads beyond the calendar, as it would if it could be. -/
theorem timeUntilDue_some (regular : last.Regular) (present : now.Regular) :
    timeUntilDue (some last) frequency now =
      if last.instant + frequency.nanos < Timestamp.calendarEnd then last.instant + frequency.nanos - now.instant
      else TimeDelta.longest := by
  obtain ⟨low, high⟩ := regular.bounds
  have counted : @Eq Int (TimeDelta.ofDuration frequency) (min frequency.nanos TimeDelta.longest) := rfl
  simp only [Timestamp.calendarStart_eq, Timestamp.calendarEnd_eq, TimeDelta.longest] at low high counted
  simp only [timeUntilDue]
  cases added : last.plus? (TimeDelta.ofDuration frequency) with
  | none =>
    rw [regular.plus?_eq] at added
    split at added
    next => cases added
    next outside =>
      simp only [Timestamp.calendarStart_eq, Timestamp.calendarEnd_eq] at outside ⊢
      rw [if_neg (by omega)]
  | some due =>
    obtain ⟨fine, exact⟩ := regular.of_plus? added
    have inside := fine.bounds
    simp only [Timestamp.calendarStart_eq, Timestamp.calendarEnd_eq] at inside ⊢
    rw [if_pos (by omega)]
    simp only [fine.minus_eq present]
    change (_ : Int) = _
    omega

theorem timeUntilDue_pos_iff (regular : Regular backups) (present : now.Regular) :
    0 < timeUntilDue (lastCompleted backups) frequency now ↔ ¬Due backups frequency now := by
  rcases lastCompleted_cases regular with ⟨unfinished, none⟩ | ⟨last, latest, fine, some⟩
  · have overdue : ¬(0 : Int) < -1000000000 := by decide
    rw [none]
    exact iff_of_false overdue (not_not_intro (Or.inl unfinished))
  · have due : Due backups frequency now ↔ last.instant + frequency.nanos ≤ now.instant := by
      refine ⟨fun due => ?_, fun past => Or.inr ⟨last, latest, past⟩⟩
      rcases due with unfinished | ⟨other, also, past⟩
      · exact absurd unfinished latest.finished
      · exact latest.unique also regular ▸ past
    have inside := present.bounds
    rw [due, some, timeUntilDue_some fine present]
    simp only [Timestamp.calendarStart_eq, Timestamp.calendarEnd_eq, TimeDelta.longest] at inside ⊢
    change @LT.lt Int _ 0 _ ↔ _
    split <;> omega

/-- A wait that is due in the future is exact. -/
theorem awaited_of_pos (regular : Regular backups) (present : now.Regular)
    (early : 0 < timeUntilDue (lastCompleted backups) frequency now) :
    Awaited backups frequency now ⟨(timeUntilDue (lastCompleted backups) frequency now).toNat⟩ := by
  rcases lastCompleted_cases regular with ⟨_, none⟩ | ⟨last, latest, fine, some⟩
  · have overdue : ¬(0 : Int) < -1000000000 := by decide
    rw [none] at early
    exact absurd early overdue
  · refine ⟨last, latest, ?_⟩
    have positive : ((timeUntilDue (lastCompleted backups) frequency now).toNat : Int) =
        timeUntilDue (lastCompleted backups) frequency now := Int.toNat_of_nonneg (Int.le_of_lt early)
    simp only [positive]
    rw [some, timeUntilDue_some fine present]
    split
    next => omega
    next => rfl

theorem fits_timeUntilDue (regular : last.Regular) (present : now.Regular) :
    (timeUntilDue (some last) frequency now).Fits := by
  have start := regular.bounds
  have inside := present.bounds
  rw [timeUntilDue_some regular present]
  simp only [Timestamp.calendarStart_eq, Timestamp.calendarEnd_eq, TimeDelta.longest, TimeDelta.Fits] at start inside ⊢
  change @LE.le Int _ _ _ ∧ @LE.le Int _ _ _
  split <;> omega

theorem seconds_lt_of_pos (regular : Regular backups) (present : now.Regular)
    (early : 0 < timeUntilDue (lastCompleted backups) frequency now) :
    (Duration.mk (timeUntilDue (lastCompleted backups) frequency now).toNat).seconds < UInt64.size := by
  obtain ⟨last, latest, _⟩ := awaited_of_pos regular present early
  have fits : (timeUntilDue (some last) frequency now).Fits := fits_timeUntilDue (latest.regular regular) present
  rw [lastCompleted_of_latest latest regular]
  obtain ⟨_, high⟩ : @LE.le Int _ _ _ ∧ @LE.le Int _ _ _ := fits
  simp only [TimeDelta.longest] at high
  simp only [Duration.seconds, UInt64.size]
  omega

theorem countable (regular : last.Regular) (present : now.Regular) : Countable last frequency now where
  length := TimeDelta.fits_ofDuration frequency
  sum := by
    have start := regular.bounds
    have exact : (last.plus (TimeDelta.ofDuration frequency)).instant = _ := regular.instant_plus
    have fraction : (last.plus (TimeDelta.ofDuration frequency)).nanos < 1000000000 := regular.plus_fraction
    have counted : @Eq Int (TimeDelta.ofDuration frequency) (min frequency.nanos TimeDelta.longest) := rfl
    simp only [Timestamp.calendarStart_eq, Timestamp.calendarEnd_eq] at start
    simp only [TimeDelta.longest] at counted
    rw [Timestamp.instant] at exact
    omega
  difference := by
    intro due added
    obtain ⟨fine, exact⟩ := regular.of_plus? added
    have inside := fine.bounds
    have now := present.bounds
    rw [fine.minus_eq present]
    simp only [Timestamp.calendarStart_eq, Timestamp.calendarEnd_eq] at inside now
    simp only [TimeDelta.Fits, TimeDelta.longest]
    change @LE.le Int _ _ _ ∧ @LE.le Int _ _ _
    omega

end Backup

open QuorumWarden.Action (heard unlessCancelled)

theorem Backup.attempts_headsFor (policy : RetryPolicy) (wanted : BackupRequest) :
    (attempts policy wanted).run.HeadsFor (.backup wanted) := by
  rw [attempts, attemptFrom_run]
  rfl

namespace BackupSchedule

variable {backups : List BackupRecord} {frequency : Duration} {now : Timestamp}

/-- What an evaluation hears on a primary, with no stop on the way and a list of backups. -/
def readings (host : String) (members : List Member) (frequency : Duration) (backups : List BackupRecord)
    (now : Timestamp) : List (Program.Event Request.Reply) :=
  [⟨.prompt .stopRequested, false⟩, ⟨.awaitOrStop (.call (.connect host)), some (.ok ())⟩,
    ⟨.awaitOrStop (.call (.listMembers host)), some (.ok members)⟩, ⟨.prompt .frequency, frequency⟩,
    ⟨.prompt .stopRequested, false⟩, ⟨.awaitOrStop (.call .listBackups), some (.ok backups)⟩,
    ⟨.prompt .wallClock, now⟩]

theorem steps_readings_iff {host : String} {policy : RetryPolicy} {members : List Member}
    (primary : (Topology.mk members).roleOf host = .primary) {left : Procedure (Outcome Duration)} :
    Program.Steps Law.free (evaluate host policy).run () (readings host members frequency backups now) left () ↔
      left = concluded policy frequency backups now := by
  simp only [evaluate_run, readings, unlessCancelled, Program.steps_free_cons, Bool.false_eq_true, if_false, heard,
    if_pos primary, onPrimary]
  exact ⟨fun steps => steps.of_nil.1, fun same => same ▸ .refl⟩

theorem concluded_of_early {policy : RetryPolicy}
    (early : 0 < Backup.timeUntilDue (Backup.lastCompleted backups) frequency now) :
    concluded policy frequency backups now =
      .done (.ok ⟨(Backup.timeUntilDue (Backup.lastCompleted backups) frequency now).toNat⟩) := if_pos early

theorem concluded_headsFor_iff {policy : RetryPolicy} :
    (concluded policy frequency backups now).HeadsFor (.backup (wanted backups now)) ↔
      ¬0 < Backup.timeUntilDue (Backup.lastCompleted backups) frequency now := by
  constructor
  · intro heads early
    rw [concluded_of_early early] at heads
    exact heads
  · intro late
    refine (congrArg (Procedure.HeadsFor _) (if_neg late)).mpr (Procedure.HeadsFor.bind ?_ _)
    exact Procedure.HeadsFor.bind (Backup.attempts_headsFor policy _) _

/-- The order in which backups are listed does not count. -/
theorem concluded_of_perm {policy : RetryPolicy} {others : List BackupRecord} (regular : Backup.Regular backups)
    (same : backups.Perm others) : concluded policy frequency others now = concluded policy frequency backups now := by
  simp only [concluded, wanted, Backup.lastCompleted_of_perm regular same, same.isEmpty_eq]

/-- On a primary a backup begins if and only if one is due, unless a stop is requested first. If none is due, none is
asked for and the wait is exact. -/
theorem begins_backup_iff_due (host : String) (policy : RetryPolicy) (members : List Member)
    (primary : (Topology.mk members).roleOf host = .primary) (frequency : Duration) (backups : List BackupRecord)
    (regular : Backup.Regular backups) (now : Timestamp) (present : now.Regular) :
    ∃ rest : Procedure (Outcome Duration),
      (∀ others, backups.Perm others → ∀ left,
        Program.Steps Law.free (evaluate host policy).run () (readings host members frequency others now) left () ↔
          left = rest) ∧
      (rest.HeadsFor (.backup (wanted backups now)) ↔ Backup.Due backups frequency now) ∧
      (¬Backup.Due backups frequency now → ∃ wait, rest = .done (.ok wait) ∧ wait.seconds < UInt64.size ∧
        Backup.Awaited backups frequency now wait) ∧
      ∀ last, Backup.Latest backups last → Backup.Countable last frequency now := by
  have early : 0 < Backup.timeUntilDue (Backup.lastCompleted backups) frequency now ↔
      ¬Backup.Due backups frequency now := Backup.timeUntilDue_pos_iff regular present
  refine ⟨concluded policy frequency backups now, fun others same left => ?_,
    concluded_headsFor_iff.trans ((not_congr early).trans Classical.not_not), fun pending => ?_,
    fun last latest => Backup.countable (latest.regular regular) present⟩
  · rw [steps_readings_iff primary, concluded_of_perm regular same]
  · have positive := early.mpr pending
    exact ⟨_, concluded_of_early positive, Backup.seconds_lt_of_pos regular present positive,
      Backup.awaited_of_pos regular present positive⟩

/-- One backup that has finished, and one that has not. -/
def oneFinished : List BackupRecord :=
  [⟨"1", none, "DONE", none, some ⟨1700000000, 5⟩⟩, ⟨"2", none, "RUNNING", none, none⟩]

theorem regular_oneFinished : Backup.Regular oneFinished := by
  intro backup listed finished done
  obtain rfl | rfl : backup = ⟨"1", none, "DONE", none, some ⟨1700000000, 5⟩⟩ ∨
      backup = ⟨"2", none, "RUNNING", none, none⟩ := by simpa [oneFinished] using listed
  · cases done
    exact ⟨by decide, by decide⟩
  · cases done

theorem waits_rest_of_hour :
    let members : List Member := [⟨1, "a", "", true, .primary⟩]
    let now : Timestamp := ⟨1700001800, 4⟩
    (Topology.mk members).roleOf "a" = .primary ∧ Backup.Regular oneFinished ∧ now.Regular ∧
      Program.Runs Law.free (evaluate "a" {}).run () (readings "a" members (.ofSeconds 3600) oneFinished now)
        (.ok ⟨1800000000001⟩) () := by
  intro members now
  have primary : (Topology.mk members).roleOf "a" = .primary := by decide
  have present : now.Regular := ⟨by decide, by decide⟩
  obtain ⟨rest, reached, _, waits, _⟩ :=
    begins_backup_iff_due "a" {} members primary (.ofSeconds 3600) oneFinished regular_oneFinished now present
  have pending : ¬Backup.Due oneFinished (.ofSeconds 3600) now :=
    (Backup.timeUntilDue_pos_iff regular_oneFinished present).mp (by decide)
  obtain ⟨⟨wait⟩, rfl, _, last, latest, exact⟩ := waits pending
  have listed : some last = some ⟨1700000000, 5⟩ := (Backup.lastCompleted_of_latest latest regular_oneFinished).symm
  cases listed
  rw [if_pos (by decide)] at exact
  have same : wait = 1800000000001 := by
    change (1700001800000000004 : Int) + wait = 1700000000000000005 + 3600000000000 at exact
    omega
  subst same
  exact ⟨primary, regular_oneFinished, present, (reached _ (.refl _) _).mpr rfl⟩

end BackupSchedule

end QuorumWarden
