import QuorumWarden.Simulation.Turn

/-! A world that answers calls of the backup tool from a script, one line a call, and
keeps a list of the calls with their times. -/

namespace QuorumWarden

inductive ScriptLine where
  | takes (millis : Nat) (outcome : Outcome String)
  | hangs
  | requestsStop

/-- How long a call takes; one that never ends counts for nothing. -/
def ScriptLine.millis : ScriptLine → Nat
  | .takes millis _ => millis
  | .hangs | .requestsStop => 0

/-- After the last line every call succeeds at once. -/
structure Script where
  lines : List ScriptLine := []
  calls : List (Nat × Call) := []

namespace Script

/-- The outcome of a call that the script settles. Only the tool's calls occur in it. -/
def reply (outcome : Outcome String) : (call : Call) → Option call.Reply
  | .backup _ => some outcome
  | .prune => some (outcome.map fun _ => ())
  | _ => none

def answer (outcome : Outcome String) (time : Nat) (call : Call) : Answer call.Reply :=
  match reply outcome call with
  | some reply => .later time reply
  | none => .never

instance : World Script where
  call call stage :=
    let script := stage.world
    let stage := { stage with world := ⟨script.lines.tail, (stage.now, call) :: script.calls⟩ }
    match script.lines.head?.getD (.takes 0 (.ok "")) with
    | .takes millis outcome => (answer outcome (stage.now + Timer.span millis) call, stage)
    | .hangs => (.never, stage)
    | .requestsStop => (answer (.ok "") stage.now call, stage.requestStop)

/-- A script has no use for markers. -/
instance : MarkerStore (StateM Script) where
  read _ := return .ok none
  write _ _ := return .ok ()
  remove _ := return .ok ()

end Script

end QuorumWarden
