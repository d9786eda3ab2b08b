import QuorumWarden.Fence.Ledger
import QuorumWarden.Simulation.Cluster
import QuorumWarden.Simulation.Turn
import QuorumWarden.Watch.Monitor

/-! Deeds of several nodes on one cluster, one after another. Each node keeps its markers,
counters, clocks and backup frequency from deed to deed. -/

namespace QuorumWarden

structure Resident where
  markers : Markers := {}
  metrics : Metrics := {}
  frequency : Frequency
  clocks : List (Monitor × Clocks) := []
  deriving Repr

namespace Resident

def clocksOf (resident : Resident) (monitor : Monitor) : Clocks := (resident.clocks.lookup monitor).getD {}

def setClocks (resident : Resident) (monitor : Monitor) (clocks : Clocks) : Resident :=
  { resident with clocks := (monitor, clocks) :: resident.clocks.filter (·.1 != monitor) }

end Resident

structure Rehearsal where
  cluster : Cluster
  frequency : Duration
  residents : List (String × Resident) := []
  readings : Nat := 0
  deriving Repr

namespace Rehearsal

variable {α : Type}

/-- A node that has done nothing yet starts with the common frequency. -/
def resident (rehearsal : Rehearsal) (host : String) : Resident :=
  (rehearsal.residents.lookup host).getD { frequency := { value := rehearsal.frequency } }

def setResident (rehearsal : Rehearsal) (host : String) (resident : Resident) : Rehearsal :=
  { rehearsal with residents := (host, resident) :: rehearsal.residents.filter (·.1 != host) }

/-- The wall clock as it stands. -/
def now (rehearsal : Rehearsal) : Timestamp := Stage.dawn.plus (rehearsal.readings * Stage.readingTime : Nat)

/-- Sends a node another frequency of backups. -/
def sendFrequency (rehearsal : Rehearsal) (host : String) (value : Duration) : Rehearsal :=
  let resident := rehearsal.resident host
  rehearsal.setResident host { resident with frequency := resident.frequency.send value }

/-- The node's surroundings at the beginning of a deed. -/
def stage (rehearsal : Rehearsal) (host : String) : Stage Scene :=
  let resident := rehearsal.resident host
  { world := { cluster := rehearsal.cluster.clearLog, host, markers := resident.markers },
    readings := rehearsal.readings, frequency := resident.frequency, metrics := resident.metrics }

/-- Takes over what a deed has left. A stop that was in store is so no longer. -/
def leave (rehearsal : Rehearsal) (host : String) (stage : Stage Scene) : Rehearsal :=
  let kept := { rehearsal.resident host with markers := stage.world.markers, metrics := stage.metrics }
  let cluster := { stage.world.cluster with trip := none }
  { rehearsal.setResident host kept with cluster, readings := stage.readings }

/-- Lets a node do something by the clocks of one of its watches, over at most so many
waits. Gives the result, if there is one, and the stage as it was left. -/
def enact (rehearsal : Rehearsal) (host : String) (stopped : Bool) (waits : Nat) (monitor : Monitor)
    (deed : Clocks → Procedure (α × Clocks)) : Option α × Stage Scene × Rehearsal :=
  let before := rehearsal.stage host
  let before := if stopped then before.requestStop else before
  let (done, stage) := before.run none waits (deed ((rehearsal.resident host).clocksOf monitor))
  let rehearsal := rehearsal.leave host stage
  match done with
  | none => (none, stage, rehearsal)
  | some (result, clocks) =>
    (some result, stage, rehearsal.setResident host ((rehearsal.resident host).setClocks monitor clocks))

/-- The warnings about slots on a stage, in order. -/
def slotWarnings (stage : Stage Scene) : List (String × Int × Nat) :=
  stage.notices.reverse.filterMap fun (_, notice) =>
    match notice with
    | .slotRetains slot member megabytes => some (slot, member, megabytes)
    | _ => none

/-- The fence by the markers of a scene. -/
def fenceOf : StateM Scene (Outcome FenceState) := (Fence.state : ExceptT Failure (StateM Scene) FenceState).run

/-- The node's fence. Reading it may use up a fault. -/
def fence (rehearsal : Rehearsal) (host : String) : Outcome FenceState × Rehearsal :=
  let (fence, scene) := fenceOf (rehearsal.stage host).world
  (fence, { rehearsal with cluster := { scene.cluster with log := rehearsal.cluster.log } })

end Rehearsal

end QuorumWarden
