import QuorumWarden.Watch.ClusterState
import QuorumWarden.Watch.DeadMembers
import QuorumWarden.Watch.IdleSlots
import QuorumWarden.Watch.Loop
import QuorumWarden.Watch.ReadonlyMirror
import QuorumWarden.Watch.Retention

/-! The watches that tick at fixed intervals. Each asks for the node's role itself, so that
all of them run on every node. -/

namespace QuorumWarden

structure WatchSettings where
  clusterStateInterval : Duration
  deadMemberInterval : Duration
  deadMemberThreshold : Duration
  slots : SlotSettings
  readonlyPollInterval : Duration
  deriving DecidableEq, Repr

inductive Monitor where
  | clusterState
  | deadMembers
  | replicationSlots
  | readonlyMirror
  | backupRetention
  deriving DecidableEq, Repr

namespace Monitor

def name : Monitor → String
  | .clusterState => "cluster_state"
  | .deadMembers => "dead_members"
  | .replicationSlots => "replication_slots"
  | .readonlyMirror => "readonly_mirror"
  | .backupRetention => "backup_retention"

def interval (settings : WatchSettings) (retention : Duration) : Monitor → Duration
  | .clusterState => settings.clusterStateInterval
  | .deadMembers => settings.deadMemberInterval
  | .replicationSlots => settings.slots.interval
  | .readonlyMirror => settings.readonlyPollInterval
  | .backupRetention => retention

/-- Runs an action that has no use for clocks. -/
def clockless {α : Type} (action : Action α) (clocks : Clocks) : Procedure (Outcome Unit × Clocks) := do
  let outcome ← action.run
  return (outcome.map fun _ => (), clocks)

/-- Runs a pass at the present instant. -/
def timed {α : Type} (pass : Nat → Pass α) (clocks : Clocks) : Procedure (Outcome Unit × Clocks) := do
  let now ← Procedure.prompt .steadyClock
  let (outcome, clocks) ← (pass now).runFrom clocks
  return (outcome.map fun _ => (), clocks)

def tick (host : String) (settings : WatchSettings) : Monitor → Clocks → Procedure (Outcome Unit × Clocks)
  | .clusterState => clockless (ClusterState.evaluate host)
  | .deadMembers => timed (DeadMembers.reap host settings.deadMemberThreshold)
  | .replicationSlots => timed (IdleSlots.reap host settings.slots)
  | .readonlyMirror => clockless (ReadonlyMirror.sync host)
  | .backupRetention => clockless (Retention.prune host)

end Monitor

end QuorumWarden
