import QuorumWarden.Readonly

/-! Fencing a primary that could not confirm itself, and lifting the fence again. Both
may be run over and over. -/

namespace QuorumWarden

/-- What a quarantine did. -/
structure Quarantine where
  redirectedTo : Option String := none
  poolerFailure : Option String := none
  databases : List String := []
  broadcast : Broadcast := {}
  deriving DecidableEq, Repr

namespace Quarantine

/-- Points the pooler at the discovered primary, unless that is nobody or this node
itself. The fence does not depend on the pooler. -/
def redirect (host discovered : String) : Action Quarantine := do
  if discovered.isEmpty || discovered == host then return {}
  match ← Action.settled (Action.guarded (setUpstream discovered)) with
  | .ok () => return { redirectedTo := some discovered }
  | .error failure =>
    Procedure.count .poolerFailures
    return { poolerFailure := some failure.full }

/-- Takes the zombie lock, then makes the databases and the peers follow. -/
def secure (host : String) (session : Session) (discovered : String) (redirected : Quarantine) : Action Quarantine := do
  Fence.takeZombieLock discovered
  let databases ← inContext "force user databases read-only"
    (Action.guarded (Readonly.setLocal session true))
  let broadcast ← Readonly.broadcast host session true
  Action.guarded (Readonly.verify session databases)
  Procedure.count .quarantines
  return { redirected with databases, broadcast }

/-- Fences the node in favour of the discovered primary, whose name may be blank. -/
def engage (host : String) (session : Session) (discovered : String) : Action Quarantine := do
  let discovered := Text.trim discovered
  secure host session discovered (← redirect host discovered)

/-- Drops the zombie lock and lets writes in again, unless another lock is left. Says
whether writes came back. -/
def lift (host : String) (session : Session) : Action Bool := do
  Fence.dropZombieLock
  Procedure.count .quarantineClears
  let fence ← Fence.state
  if fence.allowsWrites then
    let _ ← inContext "release user databases from read-only"
      (Action.guarded (Readonly.setLocal session false))
    let _ ← Readonly.broadcast host session false
    return true
  else return false

end Quarantine

end QuorumWarden
