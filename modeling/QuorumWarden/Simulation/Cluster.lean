import QuorumWarden.Catalog.Topology
import QuorumWarden.Simulation.Stage

/-! A cluster in memory that answers every call at once. All nodes share one catalog, one
list of slots and one of databases. Calls can be made to fail, to request a stop, or
to hang. -/

namespace QuorumWarden

def onOff (enabled : Bool) : String := if enabled then "on" else "off"

/-- The words for a call in the log, by which faults find it. -/
def Call.label : Call → String
  | connect host => "connect " ++ host
  | listMembers host => "list_members " ++ host
  | primaryMember host => "primary_member " ++ host
  | unregister host member => "unregister " ++ host ++ " " ++ toString member.id
  | slots host => "slots " ++ host
  | dropSlot host name => "drop_slot " ++ host ++ " " ++ name
  | databases host => "databases " ++ host
  | setReadonly host database enabled => "set_readonly " ++ host ++ " " ++ database ++ " " ++ onOff enabled
  | readonly host database => "get_readonly " ++ host ++ " " ++ database
  | peerReadonly host => "peer_state " ++ host
  | setPeerReadonly host enabled => "peer_set " ++ host ++ " " ++ onOff enabled
  | setUpstream address => "pooler " ++ address
  | backup wanted => "backup " ++ wanted.name.getD "" ++ if wanted.immediateCheckpoint then " immediate" else ""
  | listBackups => "backup_list"
  | prune => "prune"

/-- A failure in store for a call, so many times or always. -/
structure Fault where
  label : String
  times : Option Nat := none
  failure : Failure := .message "injected failure"
  deriving DecidableEq, Repr

/-- A stop in store for a call, which may never be answered then. -/
structure Trip where
  label : String
  hangs : Bool := false
  deriving DecidableEq, Repr

structure Cluster where
  members : List Member := []
  databases : List String := ["postgres", "repmgr", "app"]
  slots : List Slot := []
  unreachable : List String := []
  views : List (String × Option String) := []
  readonly : List (String × String) := []
  heedless : List String := []
  peerStates : List (String × Bool) := []
  upstream : Option String := none
  backups : List BackupRecord := []
  faults : List Fault := []
  trip : Option Trip := none
  log : List String := []
  deriving DecidableEq, Repr

namespace Cluster

def isReachable (cluster : Cluster) (host : String) : Bool := !cluster.unreachable.contains host

def setReachable (cluster : Cluster) (host : String) (reachable : Bool) : Cluster :=
  let others := cluster.unreachable.filter (· != host)
  { cluster with unreachable := if reachable then others else others ++ [host] }

def isReadonly (cluster : Cluster) (host database : String) : Bool :=
  cluster.readonly.contains (host, database)

def setReadonly (cluster : Cluster) (host database : String) (enabled : Bool) : Cluster :=
  let others := cluster.readonly.filter (· != (host, database))
  { cluster with readonly := if enabled then others ++ [(host, database)] else others }

def setHeeding (cluster : Cluster) (host : String) (heeds : Bool) : Cluster :=
  let others := cluster.heedless.filter (· != host)
  { cluster with heedless := if heeds then others else others ++ [host] }

def setPeerState (cluster : Cluster) (host : String) (value : Bool) : Cluster :=
  { cluster with peerStates := (host, value) :: cluster.peerStates.filter (·.1 != host) }

/-- Makes a host take another one for primary, or nobody. -/
def setView (cluster : Cluster) (host : String) (primary : Option String) : Cluster :=
  { cluster with views := (host, primary) :: cluster.views.filter (·.1 != host) }

def clearView (cluster : Cluster) (host : String) : Cluster :=
  { cluster with views := cluster.views.filter (·.1 != host) }

def changeMembers (cluster : Cluster) (host : String) (change : Member → Member) : Cluster :=
  { cluster with members := cluster.members.map fun m => if m.hostname == host then change m else m }

/-- A fault replaces one for the same call. -/
def setFault (cluster : Cluster) (fault : Fault) : Cluster :=
  { cluster with faults := fault :: cluster.faults.filter (·.label != fault.label) }

def clearFault (cluster : Cluster) (label : String) : Cluster :=
  { cluster with faults := cluster.faults.filter (·.label != label) }

/-- The active primary with the lowest number. -/
def lowestPrimary? (cluster : Cluster) : Option Member :=
  (cluster.members.filter fun m => m.isPrimary && m.active).foldl
    (fun lowest m => if lowest.any (·.id ≤ m.id) then lowest else some m) none

/-- A row for a host that need not be in the catalog. -/
def rowOf (cluster : Cluster) (host : String) : Member :=
  (cluster.members.find? (·.hostname == host)).getD ⟨0, host, "", true, .primary⟩

def viewOf (cluster : Cluster) (host : String) : Option Member :=
  match cluster.views.lookup host with
  | some view => view.map cluster.rowOf
  | none => cluster.lowestPrimary?

/-- The databases that are read-only, as `host/database`, in order. -/
def readonlyNames (cluster : Cluster) : List String :=
  (cluster.readonly.map fun (host, database) => host ++ "/" ++ database).mergeSort fun a b => decide (a ≤ b)

/-- How often each call was made. -/
def callCounts (cluster : Cluster) : List (String × Nat) :=
  cluster.log.foldl (fun counts label => Conflicts.record label counts) []

def clearLog (cluster : Cluster) : Cluster := { cluster with log := [] }

/-- The failure in store for a call, which is used up by this. -/
def takeFault (cluster : Cluster) (label : String) : Option Failure × Cluster :=
  match cluster.faults.find? (·.label == label) with
  | none => (none, cluster)
  | some fault =>
    match fault.times with
    | none => (some fault.failure, cluster)
    | some 0 => (none, cluster)
    | some (left + 1) => (some fault.failure, cluster.setFault { fault with times := some left })

/-- What a call does when nothing stands in its way. The time is that of a backup. -/
def effect (cluster : Cluster) (now : Timestamp) : (call : Call) → call.Reply × Cluster
  | .connect host =>
    (if cluster.isReachable host then .ok () else .error (.message ("connection refused: " ++ host)), cluster)
  | .listMembers _ => (.ok cluster.members, cluster)
  | .primaryMember host => (.ok (cluster.viewOf host), cluster)
  | .unregister _ member =>
    (.ok (), { cluster with members := cluster.members.filter (·.id != member.id) })
  | .slots _ => (.ok cluster.slots, cluster)
  | .dropSlot _ name => (.ok (), { cluster with slots := cluster.slots.filter (·.name != name) })
  | .databases _ => (.ok cluster.databases, cluster)
  | .setReadonly host database enabled =>
    (.ok (), if cluster.heedless.contains host then cluster else cluster.setReadonly host database enabled)
  | .readonly host database => (.ok (cluster.isReadonly host database), cluster)
  | .peerReadonly host => (.ok ((cluster.peerStates.lookup host).getD false), cluster)
  | .setPeerReadonly _ _ => (.ok (), cluster)
  | .setUpstream address => (.ok (), { cluster with upstream := some address })
  | .backup wanted =>
    let record := ⟨wanted.name.getD "", wanted.name, "DONE", some now, some now⟩
    (.ok "", { cluster with backups := cluster.backups ++ [record] })
  | .listBackups => (.ok cluster.backups, cluster)
  | .prune => (.ok (), cluster)

end Cluster

/-- A cluster as seen from one of its nodes, with that node's markers. -/
structure Scene where
  cluster : Cluster
  host : String
  markers : Markers := {}
  deriving DecidableEq, Repr

namespace Scene

/-- Logs a call, then looks for a stop, then for a fault, then lets it happen. -/
instance : World Scene where
  call call stage :=
    let label := call.label
    let cluster := { stage.world.cluster with log := label :: stage.world.cluster.log }
    let tripped := cluster.trip.filter (·.label == label)
    let stage := if tripped.isSome then stage.requestStop else stage
    let cluster := if tripped.isSome then { cluster with trip := none } else cluster
    let leave := fun cluster (stage : Stage Scene) => { stage with world := { stage.world with cluster } }
    if tripped.any (·.hangs) then (.never, leave cluster stage)
    else
      match cluster.takeFault label with
      | (some failure, cluster) => (.now (.error failure), leave cluster stage)
      | (none, cluster) =>
        let stage := stage.read
        let (reply, cluster) := cluster.effect stage.wallTime call
        (.now reply, leave cluster stage)

/-- Uses a marker of the node, unless a fault is in store for that. -/
def useMarker {α : Type} (verb : String) (marker : Marker) (use : StateM Markers (Outcome α)) :
    StateM Scene (Outcome α) := fun scene =>
  match scene.cluster.takeFault (verb ++ " " ++ scene.host ++ " " ++ marker.fileName) with
  | (some failure, cluster) => (.error failure, { scene with cluster })
  | (none, cluster) =>
    let (reply, markers) := use scene.markers
    (reply, { scene with cluster, markers })

instance : MarkerStore (StateM Scene) where
  read marker := useMarker "marker_read" marker (MarkerStore.read marker)
  write marker text := useMarker "marker_write" marker (MarkerStore.write marker text)
  remove marker := useMarker "marker_remove" marker (MarkerStore.remove marker)

end Scene

end QuorumWarden
