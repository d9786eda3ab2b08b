import QuorumWarden.Backup.Attempts
import QuorumWarden.Node
import QuorumWarden.Watch.Loop

/-! The schedule of full backups on a primary. It sleeps until the next backup is due and
wakes early when the frequency changes. -/

namespace QuorumWarden.BackupSchedule

/-- The wait on a node that is no primary, and after a failure. -/
def recheck : Duration := .ofSeconds 300

/-- One evaluation: makes a backup if one is due, and says how long to wait for the next
evaluation. A backup that was given up is as good as made for the schedule. -/
def evaluate (host : String) (policy : RetryPolicy) : Action Duration := do
  let role ← Action.guarded (Node.role host)
  if role != .primary then return recheck
  let frequency ← Procedure.prompt .frequency
  match ← Action.settled (Action.guarded Backup.list) with
  | .error _ => return recheck
  | .ok backups =>
    let now ← Procedure.prompt .wallClock
    let due := Backup.timeUntilDue (Backup.lastCompleted backups) frequency now
    if 0 < due then return ⟨due.toNat⟩
    let wanted := { immediateCheckpoint := backups.isEmpty, name := some ("scheduled-" ++ now.compact) }
    match ← Action.settled (Backup.attempts policy wanted) with
    | .ok _ => Procedure.count .backupsOk
    | .error _ => Procedure.count .backupsFailed
    return frequency

/-- What the schedule knows of the frequency: the version it has seen, and whether there
may be another. -/
structure State where
  seen : Nat := 0
  live : Bool := true
  deriving DecidableEq, Repr

/-- Waits for the next evaluation. News that the frequency changes no more ends the wait,
too. -/
def rest (wait : Duration) (state : State) : Procedure (Option State) := do
  let deadline ← Procedure.alarm wait.millis
  if state.live then
    let news ← Procedure.unlessStopped (Procedure.await (.frequencyNews state.seen deadline))
    return news.map fun
      | .changed version => { state with seen := version }
      | .closed => { state with live := false }
      | .elapsed => state
  else
    let slept ← Procedure.unlessStopped (Procedure.await (.sleepUntil deadline))
    return slept.map fun () => state

/-- One evaluation and the wait after it, until a stop. -/
def round (host : String) (policy : RetryPolicy) (state : State) : Procedure (Round State) := do
  match ← (Action.settled (Action.guarded (evaluate host policy))).run with
  | .error _ => return .finished (.ok ())
  | .ok evaluated =>
    let wait := match evaluated with
      | .ok wait => wait
      | .error _ => recheck
    match ← rest wait state with
    | some state => return .again state
    | none => return .finished (.ok ())

end QuorumWarden.BackupSchedule
