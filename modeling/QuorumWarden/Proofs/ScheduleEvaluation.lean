import QuorumWarden.Proofs.TaskRuns
import QuorumWarden.Watch.BackupSchedule

/-! What an evaluation of the backup schedule asks for, in order: the role, the frequency, the backups made so far and
the clock. What comes then depends on these alone. -/

namespace QuorumWarden

theorem Node.role_run (host : String) : (Node.role host).run = .ask (.await (.call (.connect host))) fun
    | .error failure => .done (.error (failure.within ("connect to local node " ++ host)))
    | .ok () => .ask (.await (.call (.listMembers host))) fun
      | .error failure => .done (.error (failure.within "list replication members"))
      | .ok members => .done (.ok ((Topology.mk members).roleOf host)) := by
  refine congrArg (Program.ask _) (funext fun reply => ?_)
  rcases reply with failure | ⟨⟩
  · rfl
  · refine congrArg (Program.ask _) (funext fun reply => ?_)
    cases reply <;> rfl

open QuorumWarden.Action (heard unlessCancelled)

namespace BackupSchedule

/-- The backup that is asked for at such a time. -/
def wanted (backups : List BackupRecord) (now : Timestamp) : BackupRequest :=
  { immediateCheckpoint := backups.isEmpty, name := some ("scheduled-" ++ now.compact) }

/-- What comes of the attempts that were made. -/
def tallied (frequency : Duration) : Outcome (Outcome String) → Procedure (Outcome Duration)
  | .error failure => .done (.error failure)
  | .ok (.ok _) => .ask (.prompt (.count .backupsOk)) fun () => .done (.ok frequency)
  | .ok (.error _) => .ask (.prompt (.count .backupsFailed)) fun () => .done (.ok frequency)

/-- What is left of an evaluation once the clock is read. -/
def concluded (policy : RetryPolicy) (frequency : Duration) (backups : List BackupRecord) (now : Timestamp) :
    Procedure (Outcome Duration) :=
  let due := Backup.timeUntilDue (Backup.lastCompleted backups) frequency now
  if 0 < due then .done (.ok ⟨due.toNat⟩)
  else (Action.settled (Backup.attempts policy (wanted backups now))).run >>= tallied frequency

/-- What is left of an evaluation on a primary. -/
def onPrimary (policy : RetryPolicy) : Procedure (Outcome Duration) :=
  .ask (.prompt .frequency) fun frequency => unlessCancelled <| .ask (.awaitOrStop (.call .listBackups)) <|
    heard (fun failure => if failure.isCancelled then .error failure else .ok recheck) fun backups =>
      .ask (.prompt .wallClock) (concluded policy frequency backups)

theorem evaluate_run (host : String) (policy : RetryPolicy) : (evaluate host policy).run =
    unlessCancelled (.ask (.awaitOrStop (.call (.connect host))) <|
      heard (fun failure => .error (failure.within ("connect to local node " ++ host))) fun () =>
        .ask (.awaitOrStop (.call (.listMembers host))) <|
          heard (fun failure => .error (failure.within "list replication members")) fun members =>
            if (Topology.mk members).roleOf host = .primary then onPrimary policy else .done (.ok recheck)) := by
  change (Action.guarded (Node.role host)).run >>= _ = _
  rw [Action.guarded_run, Procedure.unlessStopped, Node.role_run, Procedure.interruptible_await, unlessCancelled]
  refine congrArg (Program.ask _) (funext fun stop => ?_)
  cases stop with
  | true => rfl
  | false =>
    refine congrArg (Program.ask _) (funext fun reply => ?_)
    rcases reply with _ | failure | ⟨⟩
    · rfl
    · rfl
    simp only [Option.elim, Procedure.interruptible_await]
    refine congrArg (Program.ask _) (funext fun reply => ?_)
    rcases reply with _ | failure | members
    · rfl
    · rfl
    change ExceptT.run (if (Topology.mk members).roleOf host != .primary then pure recheck else _) = ite _ _ _
    by_cases primary : (Topology.mk members).roleOf host = .primary
    · rw [if_pos primary, if_neg (by simp [primary]), onPrimary]
      refine congrArg (Program.ask _) (funext fun frequency => ?_)
      change (Action.settled (Action.guarded (request .listBackups))).run >>= _ = _
      rw [Action.settled_call_run]
      refine congrArg (Program.ask _) (funext fun stop => ?_)
      cases stop with
      | true => rfl
      | false =>
        refine congrArg (Program.ask _) (funext fun reply => ?_)
        rcases reply with _ | failure | backups
        · rfl
        · simp only [heard]
          split <;> rfl
        · refine congrArg (Program.ask _) (funext fun now => ?_)
          change ExceptT.run (if 0 < Backup.timeUntilDue (Backup.lastCompleted backups) frequency now then _ else _) =
            concluded policy frequency backups now
          rw [concluded]
          by_cases early : 0 < Backup.timeUntilDue (Backup.lastCompleted backups) frequency now
          · rw [if_pos early, if_pos early]
            rfl
          · rw [if_neg early, if_neg early]
            let attempts := (Action.settled (Backup.attempts policy (wanted backups now))).run
            refine congrArg (attempts >>= ·) (funext fun made => ?_)
            rcases made with failure | failure | output <;> rfl
    · rw [if_neg primary, if_pos (by simpa using primary)]
      rfl

end BackupSchedule

end QuorumWarden
