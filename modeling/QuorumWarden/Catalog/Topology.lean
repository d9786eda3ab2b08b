import QuorumWarden.Catalog.Member
import QuorumWarden.Failure

/-! The catalog as one node reads it: who is registered, in which role. Where several
rows match, the first one counts. -/

namespace QuorumWarden

structure Topology where
  members : List Member
  deriving DecidableEq, Repr

namespace Topology

def member? (topology : Topology) (hostname : String) : Option Member :=
  topology.members.find? (·.hostname == hostname)

/-- The row of a node that must be registered. -/
def row (topology : Topology) (hostname : String) : Outcome Member :=
  match topology.member? hostname with
  | some member => .ok member
  | none => .error (.message (hostname ++ " is not registered in the replication catalog"))

def roleOf (topology : Topology) (hostname : String) : Role :=
  ((topology.member? hostname).map Member.role).getD .unknown

def standbys (topology : Topology) : List Member := topology.members.filter Member.isStandby

/-- The first active primary. -/
def primary? (topology : Topology) : Option Member :=
  topology.members.find? fun member => member.isPrimary && member.active

def peersOf (topology : Topology) (hostname : String) : List Member :=
  topology.members.filter (·.hostname != hostname)

def contains (topology : Topology) (id : Int) : Bool := topology.members.any (·.id == id)

end Topology

end QuorumWarden
