import QuorumWarden.Quarantine

/-! The watch of a primary over itself: it asks every standby whom it takes for primary,
and fences itself unless a majority confirms it. -/

namespace QuorumWarden

namespace Sample

/-- Asks one standby. A failing session is no failure: the standby is unreachable. -/
def probe (standby : Member) : Exchange (Outcome Report) := do
  match ← (Session.connect standby.hostname).run with
  | .error _ => return .ok .unreachable
  | .ok session =>
    let asked ← (inContext ("query primary view of " ++ standby.hostname) session.primaryMember).run
    return asked.map fun primary => .reachable (primary.map Member.hostname)

/-- Asks all standbys side by side. One that is reached and cannot tell fails the sample. -/
def take (host : String) (standbys : List Member) : Action Sample := do
  let heard ← Procedure.await (.gather [] (standbys.map fun standby => ⟨some 0, probe standby⟩))
  let reports ← liftExcept (heard.mapM id)
  return ofReports host reports

end Sample

namespace ClusterState

def counter : Verdict → Counter
  | .confirmed => .diagnosesConfirmed
  | .undecided => .diagnosesUndecided
  | .discoveredOther => .diagnosesDiscovered

/-- One evaluation: the diagnosis, or nothing on a node that is no primary. -/
def evaluate (host : String) : Action (Option Diagnosis) := do
  let (session, topology) ← Action.guarded (Node.survey host)
  let row ← liftExcept (topology.row host)
  if row.isPrimary then
    let sample ← Action.guarded (Sample.take host topology.standbys)
    let diagnosis := sample.diagnose
    Procedure.count (counter diagnosis.verdict)
    let fenced ← Fence.isZombie
    match diagnosis.verdict with
    | .confirmed => if fenced then let _ ← Quarantine.lift host session
    | .undecided | .discoveredOther => let _ ← Quarantine.engage host session diagnosis.primary
    return some diagnosis
  else return none

end ClusterState

end QuorumWarden
