/-! Counters of what a node has done since it started. -/

namespace QuorumWarden

inductive Counter where
  | ticksOk
  | ticksFailed
  | diagnosesConfirmed
  | diagnosesUndecided
  | diagnosesDiscovered
  | quarantines
  | quarantineClears
  | poolerFailures
  | broadcastFailures
  | readonlyMirrorChanges
  | membersReaped
  | slotsDropped
  | backupsOk
  | backupsFailed
  | backupAttemptsFailed
  | retentionRuns
  deriving DecidableEq, Repr

namespace Counter

/-- All counters, in the order in which they are shown. -/
def all : List Counter :=
  [.ticksOk, .ticksFailed, .diagnosesConfirmed, .diagnosesUndecided, .diagnosesDiscovered,
    .quarantines, .quarantineClears, .poolerFailures, .broadcastFailures, .readonlyMirrorChanges,
    .membersReaped, .slotsDropped, .backupsOk, .backupsFailed, .backupAttemptsFailed, .retentionRuns]

def name : Counter → String
  | .ticksOk => "ticks_ok"
  | .ticksFailed => "ticks_failed"
  | .diagnosesConfirmed => "diagnoses_confirmed"
  | .diagnosesUndecided => "diagnoses_undecided"
  | .diagnosesDiscovered => "diagnoses_discovered"
  | .quarantines => "quarantines"
  | .quarantineClears => "quarantine_clears"
  | .poolerFailures => "pooler_failures"
  | .broadcastFailures => "broadcast_failures"
  | .readonlyMirrorChanges => "readonly_mirror_changes"
  | .membersReaped => "members_reaped"
  | .slotsDropped => "slots_dropped"
  | .backupsOk => "backups_ok"
  | .backupsFailed => "backups_failed"
  | .backupAttemptsFailed => "backup_attempts_failed"
  | .retentionRuns => "retention_runs"

theorem mem_all (counter : Counter) : counter ∈ all := by cases counter <;> decide

end Counter

/-- The counters that are not zero, each at most once. -/
structure Metrics where
  counts : List (Counter × Nat) := []
  deriving DecidableEq, Repr

namespace Metrics

def countOf (counter : Counter) : List (Counter × Nat) → Nat
  | [] => 0
  | (other, count) :: rest => if other = counter then count else countOf counter rest

def get (metrics : Metrics) (counter : Counter) : Nat := countOf counter metrics.counts

def add (amount : Nat) (counter : Counter) : List (Counter × Nat) → List (Counter × Nat)
  | [] => [(counter, amount)]
  | (other, count) :: rest =>
    if other = counter then (other, count + amount) :: rest else (other, count) :: add amount counter rest

/-- Counts so many more events. -/
def bumpBy (metrics : Metrics) (amount : Nat) (counter : Counter) : Metrics :=
  ⟨add amount counter metrics.counts⟩

/-- Counts one more event. -/
def bump (metrics : Metrics) (counter : Counter) : Metrics := metrics.bumpBy 1 counter

/-- One line per counter. -/
def text (metrics : Metrics) : String :=
  String.join (Counter.all.map fun counter => counter.name ++ "=" ++ toString (metrics.get counter) ++ "\n")

private theorem countOf_add (amount : Nat) (counter other : Counter) (counts : List (Counter × Nat)) :
    countOf other (add amount counter counts) =
      countOf other counts + if other = counter then amount else 0 := by
  induction counts with
  | nil => by_cases same : counter = other <;> grind [add, countOf]
  | cons entry rest ih => by_cases here : entry.1 = counter <;> grind [add, countOf]

@[simp] theorem get_bump (metrics : Metrics) (counter other : Counter) :
    (metrics.bump counter).get other = metrics.get other + if other = counter then 1 else 0 :=
  countOf_add 1 counter other metrics.counts

end Metrics

end QuorumWarden
