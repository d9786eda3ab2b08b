import QuorumWarden.Node

/-! The read-only flag of a node's databases, and telling the peers of it. The system's
own databases stay out of it. -/

namespace QuorumWarden

/-- Whom a broadcast reached and whom it did not. -/
structure Broadcast where
  notified : List String := []
  failed : List String := []
  deriving DecidableEq, Repr

namespace Readonly

def systemDatabases : List String := ["postgres", "repmgr"]

def isSystemDatabase (name : String) : Bool := systemDatabases.contains name

def userDatabases (session : Session) : Action (List String) :=
  return (← session.databases).filter fun name => !isSystemDatabase name

def setEach (session : Session) (enabled : Bool) : List String → Action Unit
  | [] => return ()
  | database :: rest => do
    session.setReadonly database enabled
    setEach session enabled rest

/-- Sets the flag of every user database and returns their names. -/
def setLocal (session : Session) (enabled : Bool) : Action (List String) := do
  let databases ← userDatabases session
  setEach session enabled databases
  return databases

/-- Stops reading at the first writable one. -/
def allReadonly (session : Session) : List String → Action Bool
  | [] => return true
  | database :: rest => do if ← session.readonly database then allReadonly session rest else return false

/-- A node is read-only if all its user databases are. -/
def localState (session : Session) : Action Bool := do allReadonly session (← userDatabases session)

/-- Reads every flag back; a writable database is a failure. -/
def verify (session : Session) : List String → Action Unit
  | [] => return ()
  | database :: rest => do
    if ← session.readonly database then verify session rest
    else throw { cause := .readonlyUnverified database }

/-- A peer that cannot be told is counted; it will ask for itself later. -/
def tellEach (enabled : Bool) : List Member → Broadcast → Action Broadcast
  | [], told => return told
  | peer :: rest, told => do
    match ← Action.settled (Action.guarded (setPeerReadonly peer.hostname enabled)) with
    | .ok () => tellEach enabled rest { told with notified := told.notified ++ [peer.hostname] }
    | .error _ =>
      Procedure.count .broadcastFailures
      tellEach enabled rest { told with failed := told.failed ++ [peer.hostname] }

/-- Tells every other member. -/
def broadcast (host : String) (session : Session) (enabled : Bool) : Action Broadcast := do
  let topology ← Action.guarded (Topology.fetch session)
  tellEach enabled (topology.peersOf host) {}

/-- Takes the readonly lock, then makes the databases and the peers follow. -/
def enable (host : String) : Action Broadcast := do
  Fence.takeReadonlyLock
  let session ← Action.guarded (Node.connect host)
  let databases ← Action.guarded (setLocal session true)
  Action.guarded (verify session databases)
  broadcast host session true

/-- Drops the readonly lock, and lets writes in again unless a zombie lock is left.
Says whether writes came back. -/
def disable (host : String) : Action Bool := do
  Fence.dropReadonlyLock
  let fence ← Fence.state
  if fence.allowsWrites then
    let session ← Action.guarded (Node.connect host)
    let _ ← Action.guarded (setLocal session false)
    let _ ← broadcast host session false
    return true
  else return false

end Readonly

end QuorumWarden
