import QuorumWarden.Backup.Attempts
import QuorumWarden.Simulation.Crew
import QuorumWarden.Simulation.Script
import QuorumWarden.Supervision.Group

/-! Scripted drills of what takes time: waits, attempts at a backup, a loop, and a group of
tasks. A stop may come at a given time, at the start if that is the present. -/

namespace QuorumWarden.Drill

def stage (lines : List ScriptLine) : Stage Script := { world := { lines } }

/-- The stage with a stop that has come already, if it comes at the start. -/
def stageUnder (stopAt : Option Nat) (lines : List ScriptLine) : Stage Script :=
  if stopAt = some 0 then (stage lines).requestStop else stage lines

/-- Attempts at a backup by a scripted tool. -/
def attempts (policy : RetryPolicy) (wanted : BackupRequest) (lines : List ScriptLine) (stopAt : Option Nat) :
    Option (Outcome String) × Stage Script :=
  (stage lines).run stopAt (2 * lines.length + 4) (Backup.attempts policy wanted).run

/-- A wait of so many milliseconds: a pause, or a guarded action that ends like this. -/
inductive WaitStep where
  | pause (millis : Nat)
  | run (millis : Nat) (outcome : Outcome Unit)

def WaitStep.action : WaitStep → Action Unit
  | .pause millis => Action.pause millis
  | .run millis outcome => Action.guarded do
    if millis ≠ 0 then ExceptT.lift (Action.sleep millis)
    ExceptT.mk (return outcome)

/-- Each wait with the time at which it ended. -/
def waits (steps : List WaitStep) (stopAt : Option Nat) : Option (List (Outcome Unit × Nat)) :=
  let timed := fun step : WaitStep => (do
    let outcome ← step.action.run
    return (outcome, ← Procedure.prompt .timer) : Procedure (Outcome Unit × Nat))
  ((stage []).run stopAt (2 * steps.length + 4) (steps.mapM timed)).1

/-- A tick that is a single call of the script. -/
def tick (kept : Unit) : Procedure (Outcome Unit × Unit) := do
  let outcome ← (Backup.prune : Action Unit).run
  return (outcome, kept)

/-- What a loop left: when its ticks began and ended, how it ended and when, and whether it
saw a stop. -/
structure LoopReport where
  begun : List Nat
  ended : List Nat
  ending : Option (Nat × Ending)
  stopped : Bool
  metrics : Metrics

/-- A loop with scripted ticks. Without a stop it is left to itself for as long as the script
may last. -/
def loop (interval : Nat) (lines : List ScriptLine) (stopAt : Option Nat) : LoopReport :=
  let round := Loop.round interval tick
  let crew : Crew (Loop.State Unit) Script :=
    (Crew.mk (stageUnder stopAt lines) [] 0).add "loop" (round ⟨0, ()⟩)
  let longest := (lines.map ScriptLine.millis).foldl max 0
  let lasts := (lines.length + 2) * (longest + max interval Loop.shortest)
  let crew := (crew.advance round (stopAt.getD lasts)).settled round
  let crew := if stopAt.isSome ∧ crew.stage.endings.isEmpty then crew.requestStop.settled round else crew
  let times := fun said => (crew.stage.notices.reverse.filter (·.2 = said)).map (·.1)
  { begun := times .tickBegun, ended := times .tickEnded, ending := crew.stage.endings.head?,
    stopped := crew.stage.stopped, metrics := crew.stage.metrics }

/-- A task of a group: one that heeds no stop, one that does, and one that breaks off. -/
inductive Task where
  | runs (millis : Nat) (outcome : Outcome Unit)
  | waits (millis : Nat)
  | breaksOff (millis : Nat) (why : String := "task panicked")

def Task.round : Task → Procedure (Round Unit)
  | .runs millis outcome => do
    Action.sleep millis
    return .finished outcome
  | .waits millis => do return .finished (← (Action.pause millis).run)
  | .breaksOff millis why => do
    Action.sleep millis
    return .brokenOff why

/-- The crew after each of the tasks was added, the empty one first. -/
def crews (stopAt : Option Nat) (tasks : List (String × Task)) : List (Crew Unit Script) :=
  let start : Crew Unit Script := ⟨stageUnder stopAt [], [], 0⟩
  (List.range (tasks.length + 1)).map fun count =>
    (tasks.take count).foldl (fun crew task => crew.add task.1 task.2.round) start

/-- Joins a group of all the tasks. -/
def group (stopAt : Option Nat) (tasks : List (String × Task)) : Option (Outcome Unit) × Crew Unit Script :=
  let start : Crew Unit Script := ⟨stageUnder stopAt [], [], 0⟩
  let crew := tasks.foldl (fun crew task => crew.add task.1 task.2.round) start
  crew.runBeside (fun () => return .finished (.ok ())) stopAt (4 * tasks.length + 4) (Group.join tasks.length).run

end QuorumWarden.Drill
