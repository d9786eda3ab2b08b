import QuorumWarden.Fence.Marker
import QuorumWarden.Metrics
import QuorumWarden.Port
import QuorumWarden.Quorum.Sample

/-! Procedures of a node: programs that look at clocks and markers, make calls, and can
be stopped. A stop is seen where a guarded part is entered and whenever it has been
waiting, so what answers at once is never torn apart. -/

namespace QuorumWarden

/-- What a node reports beside its results. -/
inductive Notice where
  | slotRetains (slot : String) (member : Int) (megabytes : Nat)
  | tickBegun
  | tickEnded
  deriving DecidableEq, Repr

/-- What is answered at once. -/
inductive Prompt where
  | stopRequested
  | requestStop
  | timer
  | steadyClock
  | wallClock
  | frequency
  | readMarker (marker : Marker)
  | writeMarker (marker : Marker) (text : String)
  | removeMarker (marker : Marker)
  | count (counter : Counter)
  | notice (notice : Notice)
  deriving DecidableEq, Repr

/-- The timer runs in milliseconds and the steady clock in nanoseconds. -/
abbrev Prompt.Reply : Prompt → Type
  | stopRequested => Bool
  | requestStop | count _ | notice _ => Unit
  | timer | steadyClock => Nat
  | wallClock => Timestamp
  | frequency => Duration
  | readMarker _ => Outcome (Option String)
  | writeMarker _ _ | removeMarker _ => Outcome Unit

namespace Timer

/-- Thirty years in milliseconds. No timer is set for a longer time. -/
def longest : Nat := 946080000000

def span (millis : Nat) : Nat := min millis longest

end Timer

/-- One of several exchanges that run side by side, and when it can go on. One that
waits for an answer that never comes has no such time. -/
structure Strand where
  wakesAt : Option Nat
  rest : Exchange (Outcome Report)

/-- How the wait for another frequency ended. -/
inductive FrequencyNews where
  | changed (version : Nat)
  | closed
  | elapsed
  deriving DecidableEq, Repr

/-- How a task of a group came to its end. One that broke off has no result, and all that is told of it is why. -/
inductive Ending where
  | returned (task : String) (outcome : Outcome Unit)
  | brokenOff {why : String}
  deriving Repr

/-- What may take time. -/
inductive Wait where
  | call (call : Call)
  | gather (heard : List (Outcome Report)) (strands : List Strand)
  | sleepUntil (time : Nat)
  | frequencyNews (seen deadline : Nat)
  | ending
  | forever

/-- What was heard is in the order of arrival, up to the first failure. -/
abbrev Wait.Reply : Wait → Type
  | call made => made.Reply
  | gather _ _ => List (Outcome Report)
  | sleepUntil _ => Unit
  | frequencyNews _ _ => FrequencyNews
  | ending => Ending
  | forever => Empty

inductive Request where
  | prompt (prompt : Prompt)
  | await (wait : Wait)
  | awaitOrStop (wait : Wait)

/-- A wait that gives way to a stop has no reply then. -/
abbrev Request.Reply : Request → Type
  | prompt asked => asked.Reply
  | await wait => wait.Reply
  | awaitOrStop wait => Option wait.Reply

abbrev Procedure := Program Request Request.Reply

/-- A procedure that may fail. -/
abbrev Action := ExceptT Failure Procedure

namespace Procedure

variable {α : Type}

def prompt (asked : Prompt) : Procedure asked.Reply := Program.perform (Request.prompt asked)

def await (wait : Wait) : Procedure wait.Reply := Program.perform (Request.await wait)

instance : Ports Procedure where
  call made := await (.call made)

instance : MarkerStore Procedure where
  read marker := prompt (.readMarker marker)
  write marker text := prompt (.writeMarker marker text)
  remove marker := prompt (.removeMarker marker)

/-- The time at which a timer goes off that is set for so many milliseconds. -/
def alarm (millis : Nat) : Procedure Nat := do return (← prompt .timer) + Timer.span millis

def count (counter : Counter) : Procedure Unit := prompt (.count counter)

def notice (said : Notice) : Procedure Unit := prompt (.notice said)

/-- The same procedure, given up if a stop is requested while it waits. -/
def interruptible : Procedure α → Procedure (Option α)
  | .done value => .done (some value)
  | .ask (.prompt asked) next => .ask (.prompt asked) fun reply => interruptible (next reply)
  | .ask (.await wait) next => .ask (.awaitOrStop wait) fun
    | none => .done none
    | some reply => interruptible (next reply)
  | .ask (.awaitOrStop wait) next => .ask (.awaitOrStop wait) fun
    | none => .done none
    | some reply => interruptible (next (some reply))

/-- Does not begin if a stop is requested already. -/
def unlessStopped (procedure : Procedure α) : Procedure (Option α) := do
  if ← prompt .stopRequested then return none
  else interruptible procedure

end Procedure

namespace Action

variable {α : Type}

/-- A stop makes the action fail as cancelled. -/
def guarded (action : Action α) : Action α := ExceptT.mk do
  match ← Procedure.unlessStopped action.run with
  | some outcome => return outcome
  | none => return .error .cancelled

/-- Waits so many milliseconds, as far as the timer can be set. -/
def sleep (millis : Nat) : Procedure Unit := do Procedure.await (.sleepUntil (← Procedure.alarm millis))

/-- Waits, or fails as cancelled. -/
def pause (millis : Nat) : Action Unit := guarded (ExceptT.lift (sleep millis))

/-- Fails only as cancelled; any other failure is a result. -/
def settled (action : Action α) : Action (Outcome α) := ExceptT.mk do
  match ← action.run with
  | .ok value => return .ok (.ok value)
  | .error failure => return if failure.isCancelled then .error failure else .ok (.error failure)

end Action

end QuorumWarden
