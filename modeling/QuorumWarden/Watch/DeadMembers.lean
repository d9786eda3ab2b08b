import QuorumWarden.Node
import QuorumWarden.Watch.Clocks

/-! The watch of a primary over its standbys: one that stays unreachable past a grace
period is taken out of the catalog. -/

namespace QuorumWarden.DeadMembers

/-- Removes a standby that has been unreachable for long enough; says whether it did.
If that fails, the clock runs on and the next pass tries again. -/
def remove (session : Session) (threshold : Duration) (now : Nat) (standby : Member) : Pass Bool := do
  Pass.update (·.start standby.id now)
  if (← Pass.clocks).elapsed standby.id now < threshold.nanos then return false
  match ← Action.settled (Action.guarded (session.unregister standby)) with
  | .error _ => return false
  | .ok () =>
    Pass.update (·.stop standby.id)
    Pass.act (ExceptT.lift (Procedure.count .membersReaped))
    return true

def visit (session : Session) (threshold : Duration) (now : Nat) (standby : Member) : Pass Bool := do
  match ← Action.settled (Action.guarded (Session.connect standby.hostname)) with
  | .ok _ =>
    Pass.update (·.restart standby.id now)
    return false
  | .error _ => remove session threshold now standby

def visitEach (session : Session) (threshold : Duration) (now : Nat) : List Member → Pass (List Int)
  | [] => return []
  | standby :: rest => do
    let removed ← visit session threshold now standby
    let others ← visitEach session threshold now rest
    return if removed then standby.id :: others else others

/-- One pass at an instant: the members it removed. Clocks of members that somebody else
removed are forgotten. -/
def reap (host : String) (threshold : Duration) (now : Nat) : Pass (List Int) := do
  let (session, topology) ← Action.guarded (Node.survey host)
  let row ← Pass.act (liftExcept (topology.row host))
  if !row.isPrimary then return []
  let removed ← visitEach session threshold now topology.standbys
  Pass.update (·.keepOnly topology.contains)
  return removed

end QuorumWarden.DeadMembers
