import QuorumWarden.Backup.Due
import QuorumWarden.Catalog.Member
import QuorumWarden.Failure
import QuorumWarden.Program

/-! The calls that leave a node: to databases, to peers, to the pooler and to the
backup tool. Each may take its time and may fail. -/

namespace QuorumWarden

/-- One call. A `host` is where the session is open, or whom the call addresses. -/
inductive Call where
  | connect (host : String)
  | listMembers (host : String)
  | primaryMember (host : String)
  | unregister (host : String) (member : Member)
  | slots (host : String)
  | dropSlot (host name : String)
  | databases (host : String)
  | setReadonly (host database : String) (enabled : Bool)
  | readonly (host database : String)
  | peerReadonly (host : String)
  | setPeerReadonly (host : String) (enabled : Bool)
  | setUpstream (address : String)
  | backup (request : BackupRequest)
  | listBackups
  | prune
  deriving DecidableEq, Repr

namespace Call

/-- What a call that succeeds returns. -/
abbrev Payload : Call → Type
  | connect _ | unregister _ _ | dropSlot _ _ | setReadonly _ _ _ => Unit
  | setPeerReadonly _ _ | setUpstream _ | prune => Unit
  | listMembers _ => List Member
  | primaryMember _ => Option Member
  | slots _ => List Slot
  | databases _ => List String
  | readonly _ _ | peerReadonly _ => Bool
  | backup _ => String
  | listBackups => List BackupRecord

abbrev Reply (call : Call) : Type := Outcome call.Payload

end Call

/-- Effects that can make calls. -/
class Ports (m : Type → Type) where
  call : (call : Call) → m call.Reply

/-- A program of calls and nothing else. -/
abbrev Exchange := Program Call Call.Reply

instance : Ports Exchange where
  call := Program.perform

variable {m : Type → Type} [Ports m]

def request (call : Call) : ExceptT Failure m call.Payload := ExceptT.mk (Ports.call call)

/-- An open session on one host. -/
structure Session where
  host : String
  deriving DecidableEq, Repr

namespace Session

def connect [Monad m] (host : String) : ExceptT Failure m Session := do
  request (.connect host)
  return ⟨host⟩

def listMembers (session : Session) : ExceptT Failure m (List Member) := request (.listMembers session.host)

/-- Whom this host takes for primary. -/
def primaryMember (session : Session) : ExceptT Failure m (Option Member) :=
  request (.primaryMember session.host)

def unregister (session : Session) (member : Member) : ExceptT Failure m Unit :=
  request (.unregister session.host member)

def slots (session : Session) : ExceptT Failure m (List Slot) := request (.slots session.host)

def dropSlot (session : Session) (name : String) : ExceptT Failure m Unit :=
  request (.dropSlot session.host name)

def databases (session : Session) : ExceptT Failure m (List String) := request (.databases session.host)

def setReadonly (session : Session) (database : String) (enabled : Bool) : ExceptT Failure m Unit :=
  request (.setReadonly session.host database enabled)

def readonly (session : Session) (database : String) : ExceptT Failure m Bool :=
  request (.readonly session.host database)

end Session

/-- What a peer says of its own flag. -/
def peerReadonly (host : String) : ExceptT Failure m Bool := request (.peerReadonly host)

def setPeerReadonly (host : String) (enabled : Bool) : ExceptT Failure m Unit :=
  request (.setPeerReadonly host enabled)

def setUpstream (address : String) : ExceptT Failure m Unit := request (.setUpstream address)

namespace Backup

/-- Has the tool make a backup; the tool's words are the result. -/
def make (wanted : BackupRequest) : ExceptT Failure m String := request (.backup wanted)

def list : ExceptT Failure m (List BackupRecord) := request .listBackups

def prune : ExceptT Failure m Unit := request .prune

end Backup

end QuorumWarden
