import QuorumWarden.Supervision.Group
import QuorumWarden.Watch.BackupSchedule
import QuorumWarden.Watch.Monitor

/-! The duties of a node, each a task of one group. The same duties run on primaries and
standbys. -/

namespace QuorumWarden

structure BackupDuties where
  retentionInterval : Duration
  retry : RetryPolicy
  deriving DecidableEq, Repr

/-- What a node is set to do. -/
structure Orders where
  host : String
  watches : WatchSettings
  backups : Option BackupDuties
  deriving DecidableEq, Repr

/-- A duty between two of its rounds. -/
inductive Duty where
  | monitor (kind : Monitor) (state : Loop.State Clocks)
  | schedule (retry : RetryPolicy) (state : BackupSchedule.State)

namespace Duty

def name : Duty → String
  | .monitor kind _ => kind.name
  | .schedule _ _ => "backup_scheduler"

def round (orders : Orders) : Duty → Procedure (Round Duty)
  | .monitor kind state => do
    let retention := (orders.backups.map (·.retentionInterval)).getD ⟨0⟩
    let interval := (kind.interval orders.watches retention).millis
    return (← Loop.round interval (kind.tick orders.host orders.watches) state).map (.monitor kind)
  | .schedule retry state => do
    return (← BackupSchedule.round orders.host retry state).map (.schedule retry)

/-- All duties at their start. -/
def all (orders : Orders) (now : Nat) : List Duty :=
  let monitors := [.clusterState, .deadMembers, .replicationSlots, .readonlyMirror]
  let begun := fun kind => Duty.monitor kind ⟨now, {}⟩
  monitors.map begun ++
    match orders.backups with
    | none => []
    | some backups => [.schedule backups.retry {}, begun .backupRetention]

end Duty

/-- What a node does before its duties: it looks at the fence it is left with, and tries to
certify its registration. If that fails, the next start tries again. -/
def startUp (host : String) : Action FenceState := do
  let fence ← inContext "read fence markers" Fence.state
  let _ ← ExceptT.lift (Node.ensureRegistration host).run
  return fence

end QuorumWarden
