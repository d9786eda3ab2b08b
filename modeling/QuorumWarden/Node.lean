import QuorumWarden.Catalog.Topology
import QuorumWarden.Fence.Ledger
import QuorumWarden.Procedure

/-! A node in its cluster: its own session, the catalog as it reads it there, and its
registration. A node is known by its hostname. -/

namespace QuorumWarden

/-- Reads the catalog afresh. -/
def Topology.fetch (session : Session) : Action Topology :=
  inContext "list replication members" do return ⟨← session.listMembers⟩

namespace Node

/-- Opens a session on the node itself. -/
def connect (host : String) : Action Session :=
  inContext ("connect to local node " ++ host) (Session.connect host)

/-- The node's session and the catalog read through it. -/
def survey (host : String) : Action (Session × Topology) := do
  let session ← connect host
  return (session, ← Topology.fetch session)

def role (host : String) : Action Role := do
  let (_, topology) ← survey host
  return topology.roleOf host

/-- Certifies the registration once the node is in the catalog; says whether it is
registered. A certificate spares the catalog. -/
def ensureRegistration (host : String) : Action Bool := do
  if ← Fence.isRegistered then return true
  let (_, topology) ← survey host
  match topology.member? host with
  | none => return false
  | some _ =>
    Fence.register host
    return true

end Node

end QuorumWarden
