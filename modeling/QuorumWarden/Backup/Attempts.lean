import QuorumWarden.Procedure

/-! Making one backup with bounded retry at a fixed delay. -/

namespace QuorumWarden

structure RetryPolicy where
  maxAttempts : Nat := 10
  delay : Duration := .ofSeconds 30
  deriving DecidableEq, Repr

namespace Backup

/-- Makes attempts until one succeeds, with `further` left after this one. -/
def attemptFrom (delay : Duration) (wanted : BackupRequest) (further number : Nat) : Action String := do
  if ← Procedure.prompt .stopRequested then throw .cancelled
  match ← Action.settled (Action.guarded (make wanted)) with
  | .ok output => return output
  | .error failure =>
    Procedure.count .backupAttemptsFailed
    match further with
    | 0 => throw { cause := .retriesExhausted number failure.full }
    | further + 1 =>
      Action.pause delay.millis
      attemptFrom delay wanted further (number + 1)

/-- At least one attempt is made, whatever the policy says. -/
def attempts (policy : RetryPolicy) (wanted : BackupRequest) : Action String :=
  attemptFrom policy.delay wanted (policy.maxAttempts - 1) 1

end Backup

end QuorumWarden
