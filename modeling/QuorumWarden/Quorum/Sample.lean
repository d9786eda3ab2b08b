/-! Asking around who is primary. A node counts what it hears from every member it
reaches and judges itself by a strict majority of all it asked, itself included. -/

namespace QuorumWarden

/-- What asking one standby brought. -/
inductive Report where
  | unreachable
  | reachable (primary : Option String)
  deriving DecidableEq, Repr

/-- How often each other host was named, in the order of the names. -/
abbrev Conflicts := List (String × Nat)

namespace Conflicts

def record (host : String) : Conflicts → Conflicts
  | [] => [(host, 1)]
  | (other, count) :: rest =>
    if other = host then (other, count + 1) :: rest
    else if host < other then (host, 1) :: (other, count) :: rest
    else (other, count) :: record host rest

/-- Sets the count of a host, at its place in the order. -/
def put (host : String) (count : Nat) : Conflicts → Conflicts
  | [] => [(host, count)]
  | (other, old) :: rest =>
    if other = host then (host, count) :: rest
    else if host < other then (host, count) :: (other, old) :: rest
    else (other, old) :: put host count rest

def count (host : String) (conflicts : Conflicts) : Nat := (conflicts.lookup host).getD 0

/-- The first host with the highest count, if a count is above zero. -/
def top (conflicts : Conflicts) : String × Nat :=
  conflicts.foldl (fun best entry => if best.2 < entry.2 then entry else best) ("", 0)

end Conflicts

structure Sample where
  hostname : String
  members : Nat
  active : Nat
  inactive : Nat
  conflicting : Nat
  conflicts : Conflicts
  deriving DecidableEq, Repr

inductive Verdict where
  | confirmed
  | undecided
  | discoveredOther
  deriving DecidableEq, Repr

/-- A verdict and the host it takes for primary, if it takes one. -/
structure Diagnosis where
  verdict : Verdict
  primary : String
  deriving DecidableEq, Repr

namespace Sample

/-- Before anyone is asked, a node has its own word only. -/
def alone (hostname : String) : Sample := ⟨hostname, 1, 1, 0, 0, []⟩

def record (sample : Sample) : Report → Sample
  | .unreachable => { sample with members := sample.members + 1, inactive := sample.inactive + 1 }
  | .reachable named =>
    let heard := { sample with members := sample.members + 1, active := sample.active + 1 }
    match named with
    | none => heard
    | some host =>
      if host = sample.hostname then heard
      else { heard with conflicting := heard.conflicting + 1, conflicts := heard.conflicts.record host }

def ofReports (hostname : String) (reports : List Report) : Sample :=
  reports.foldl record (alone hostname)

/-- The sample before the first report and after each one. -/
def history (hostname : String) (reports : List Report) : List Sample :=
  (List.range (reports.length + 1)).map fun count => ofReports hostname (reports.take count)

/-- The least number that is more than half. -/
def quorum (sample : Sample) : Nat := sample.members / 2 + 1

/-- The members that were reached and do not contradict this node. -/
def agreeing (sample : Sample) : Nat := sample.members - sample.inactive - sample.conflicting

/-- A node that is the only member needs nobody's word. Otherwise a contradiction
under a passing quorum leaves the question open. -/
def diagnose (sample : Sample) : Diagnosis :=
  if sample.members = 1 then ⟨.confirmed, sample.hostname⟩
  else if sample.active < sample.quorum then ⟨.undecided, ""⟩
  else if sample.quorum ≤ sample.agreeing then
    if 0 < sample.conflicting then ⟨.undecided, ""⟩ else ⟨.confirmed, sample.hostname⟩
  else if sample.quorum ≤ sample.conflicts.top.2 then ⟨.discoveredOther, sample.conflicts.top.1⟩
  else ⟨.undecided, ""⟩

end Sample

end QuorumWarden
