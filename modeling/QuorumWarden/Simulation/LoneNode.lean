import QuorumWarden.Fence.Files
import QuorumWarden.Peer.Http
import QuorumWarden.Settings.Config
import QuorumWarden.Simulation.DutyCrew

/-! The whole service of a node on files of its own, with every other host silent: the
calls that leave the node fail, and the node goes on. -/

namespace QuorumWarden

/-- A node's own machine. -/
structure LoneNode where
  config : Config
  tree : FileTree

namespace LoneNode

def silence : String := "connection refused"

/-- No session is ever open here. -/
def refused {α : Type} (node : LoneNode) (host : String) : Outcome α :=
  match node.config.sessions.opened host (.refuses silence) with
  | .ok () => .error (.message silence)
  | .error failure => .error failure

def effect (node : LoneNode) : (call : Call) → call.Reply × LoneNode
  | .connect host => (node.refused host, node)
  | .listMembers host => (node.refused host, node)
  | .primaryMember host => (node.refused host, node)
  | .unregister host _ => (node.refused host, node)
  | .slots host => (node.refused host, node)
  | .dropSlot host _ => (node.refused host, node)
  | .databases host => (node.refused host, node)
  | .setReadonly host _ _ => (node.refused host, node)
  | .readonly host _ => (node.refused host, node)
  | .peerReadonly host => (Peer.readFlag host node.config.adminPort (.none silence), node)
  | .setPeerReadonly host enabled =>
    (Peer.readDone enabled host node.config.adminPort (.none silence), node)
  | .setUpstream address =>
    let (outcome, tree) := (Pooler.redirect node.config.pooler silence address).run node.tree
    (outcome, { node with tree })
  | .backup wanted => (Barman.output (.backup wanted) (.notStarted silence), node)
  | .listBackups => (Barman.listed (.notStarted silence), node)
  | .prune => ((Barman.output .prune (.notStarted silence)).map fun _ => (), node)

instance : World LoneNode where
  call call stage :=
    let (reply, world) := stage.world.effect call
    (.now reply, { stage with world })

def markers (node : LoneNode) : MarkerFiles := ⟨node.config.dataDirectory⟩

instance : MarkerStore (StateM LoneNode) where
  read marker := fun node => (node.markers.read node.tree marker, node)
  write marker text := fun node =>
    let (outcome, tree) := (node.markers.write marker text).run node.tree
    (outcome, { node with tree })
  remove marker := fun node =>
    let (outcome, tree) := (node.markers.remove marker).run node.tree
    (outcome, { node with tree })

/-- Checks the configuration and makes the directory of the markers. -/
def prepare (config : Config) : ExceptT Failure (StateM FileTree) Unit := do
  liftExcept config.validate
  Filing.during ("create data dir " ++ config.dataDirectory) (Filing.makeDirectories config.dataDirectory)

def stage (node : LoneNode) : Stage LoneNode :=
  { world := node,
    frequency := { value := (node.config.backups.map BackupSettings.frequency).getD ⟨0⟩ } }

/-- Starts the node, lets every duty have its first turn, and shuts down. Gives the group's
outcome, the files that are left, and the counters if the duties were begun. -/
def serve (config : Config) (tree : FileTree) : Outcome Unit × FileTree × Option Metrics :=
  match (prepare config).run tree with
  | (.error failure, tree) => (.error failure, tree, none)
  | (.ok (), tree) =>
    match (stage ⟨config, tree⟩).run none 1 (startUp config.hostname).run with
    | (some (.ok _), stage) =>
      let (outcome, duties) := (DutyCrew.all config.orders stage).supervised (some stage.now)
      (outcome.getD (.ok ()), duties.world.tree, some duties.crew.stage.metrics)
    | (some (.error failure), stage) => (.error failure, stage.world.tree, none)
    | (none, stage) => (.ok (), stage.world.tree, none)

end LoneNode

end QuorumWarden
