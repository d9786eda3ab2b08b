import QuorumWarden.Readonly

/-! The watch of a standby over its primary's read-only flag, which it copies. -/

namespace QuorumWarden.ReadonlyMirror

/-- One pass: the flag that the node has after it, or nothing on a node that is no
standby. A zombie lock keeps the node read-only whatever the primary says. -/
def sync (host : String) : Action (Option Bool) := do
  let (session, topology) ← Action.guarded (Node.survey host)
  let row ← liftExcept (topology.row host)
  if !row.isStandby then return none
  let some primary := topology.primary? | throw (.message "no active primary registered")
  let wanted ← inContext ("poll readonly state of primary " ++ primary.hostname)
    (Action.guarded (peerReadonly primary.hostname))
  let databases ← Action.guarded (Readonly.userDatabases session)
  if databases.isEmpty then return some wanted
  let current ← Action.guarded (Readonly.localState session)
  if wanted == current then return some current
  let held ← if wanted then pure false else Fence.isZombie
  if held then return some current
  let _ ← Action.guarded (Readonly.setLocal session wanted)
  Procedure.count .readonlyMirrorChanges
  return some wanted

end QuorumWarden.ReadonlyMirror
