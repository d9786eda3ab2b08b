import QuorumWarden.Simulation.Turn
import QuorumWarden.Watch.Loop

/-! Several tasks side by side on one stage. One task runs at a time, until it waits; the
timer moves on when all of them wait. -/

namespace QuorumWarden

/-- A task that goes round and round, in the middle of a round. The number tells when it
began to wait, among the tasks that wait for the same instant. -/
structure Worker (σ : Type) where
  name : String
  number : Nat
  rest : Procedure (Round σ)

structure Crew (σ κ : Type) where
  stage : Stage κ
  workers : List (Worker σ) := []
  issued : Nat := 0

namespace Crew

variable {σ κ α : Type}

/-- Adds a task that has not begun. -/
def add (crew : Crew σ κ) (name : String) (task : Procedure (Round σ)) : Crew σ κ :=
  { crew with workers := crew.workers ++ [⟨name, crew.issued, task⟩], issued := crew.issued + 1 }

/-- The number of tasks that have not ended. -/
def size (crew : Crew σ κ) : Nat := crew.workers.length

/-- Rounds that a task may begin without waiting in between. -/
def patience : Nat := 128

variable [World κ] [MarkerStore (StateM κ)] (round : σ → Procedure (Round σ))

/-- Runs a task until it waits, ends or loses patience. -/
def runWorker : (rounds : Nat) → Stage κ → Procedure (Round σ) → Procedure (Round σ) × Stage κ
  | 0, stage, task => (task, stage)
  | rounds + 1, stage, task =>
    match stage.resume task with
    | (.done (.again state), stage) => runWorker rounds stage (round state)
    | ran => ran

def ending? (name : String) : Procedure (Round σ) → Option Ending
  | .done (.finished outcome) => some (.returned name outcome)
  | .done (.brokenOff why) => some (@Ending.brokenOff why)
  | _ => none

/-- Gives one task its turn. -/
def turn (crew : Crew σ κ) (worker : Worker σ) : Crew σ κ :=
  let (rest, stage) := runWorker round patience crew.stage worker.rest
  let others := crew.workers.filter (·.number != worker.number)
  match ending? worker.name rest with
  | some ending =>
    { crew with workers := others, stage := { stage with endings := stage.endings ++ [(stage.now, ending)] } }
  | none =>
    { workers := others ++ [⟨worker.name, crew.issued, rest⟩], stage, issued := crew.issued + 1 }

/-- The tasks that can go on, those that waited for an earlier instant first. -/
def ready (crew : Crew σ κ) : List (Worker σ) :=
  let order := fun worker : Worker σ => (worker.rest.wakesAt.getD crew.stage.now, worker.number)
  (crew.workers.filter (·.rest.isReady crew.stage)).mergeSort fun a b =>
    decide ((order a).1 < (order b).1 ∨ ((order a).1 = (order b).1 ∧ (order a).2 ≤ (order b).2))

/-- Gives turns until nobody can go on. -/
def settle : (batches : Nat) → Crew σ κ → Crew σ κ
  | 0, crew => crew
  | batches + 1, crew =>
    match crew.ready with
    | [] => crew
    | batch => settle batches (batch.foldl (turn round) crew)

/-- Batches enough for every task to run, to be stopped and to end. -/
def batches (crew : Crew σ κ) : Nat := 2 * crew.size + 2

def settled (crew : Crew σ κ) : Crew σ κ := settle round crew.batches crew

def wakesAt (crew : Crew σ κ) : Option Nat := (crew.workers.filterMap (·.rest.wakesAt)).min?

def moveTo (crew : Crew σ κ) (time : Nat) : Crew σ κ := { crew with stage := crew.stage.moveTo time }

def advanceBy (target : Nat) : (instants : Nat) → Crew σ κ → Crew σ κ
  | 0, crew => crew
  | instants + 1, crew =>
    let crew := crew.settled round
    match crew.wakesAt with
    | some wake => if wake < target then advanceBy target instants (crew.moveTo wake) else crew
    | none => crew

/-- Lets time pass. What is due at the last instant is still to be done after it, and when no
time passes nobody has a turn. -/
def advance (crew : Crew σ κ) (millis : Nat) : Crew σ κ :=
  let instants := Timer.span millis
  let target := crew.stage.now + instants
  (advanceBy round target instants crew).moveTo target

def requestStop (crew : Crew σ κ) : Crew σ κ := { crew with stage := crew.stage.requestStop }

/-- Runs a procedure beside the crew; it has its turn when no task can go on. Gives up
after so many turns. -/
def runBeside (stopAt : Option Nat) : (turns : Nat) → Crew σ κ → Procedure α → Option α × Crew σ κ
  | 0, crew, main => (Stage.value? main, crew)
  | turns + 1, crew, main =>
    let crew := crew.settled round
    let (main, stage) := crew.stage.resume main
    let crew := { crew with stage }
    match Stage.value? main with
    | some value => (some value, crew)
    | none =>
      if !crew.ready.isEmpty then runBeside stopAt turns crew main
      else
        let stop := if crew.stage.stopped then none else stopAt
        match stop, (crew.wakesAt.toList ++ main.wakesAt.toList).min? with
        | some stop, some wake =>
          if stop ≤ wake then runBeside stopAt turns (crew.moveTo stop).requestStop main
          else runBeside stopAt turns (crew.moveTo wake) main
        | some stop, none => runBeside stopAt turns (crew.moveTo stop).requestStop main
        | none, some wake => runBeside stopAt turns (crew.moveTo wake) main
        | none, none => (none, crew)

end Crew

end QuorumWarden
