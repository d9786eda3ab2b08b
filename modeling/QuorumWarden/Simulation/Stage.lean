import QuorumWarden.Procedure

/-! What procedures are rehearsed on: a timer that stands still while anything runs, a
stop, counters, and a world that answers calls and keeps markers. -/

namespace QuorumWarden

/-- How a call is answered. The outcome is settled when the call is made, even if the
caller hears of it later. -/
inductive Answer (ρ : Type) where
  | now (reply : ρ)
  | later (time : Nat) (reply : ρ)
  | never

/-- The frequency of backups, as its sender has set it. -/
structure Frequency where
  value : Duration
  version : Nat := 0
  live : Bool := true
  deriving DecidableEq, Repr

/-- After the end nothing is sent. -/
def Frequency.send (frequency : Frequency) (value : Duration) : Frequency :=
  if frequency.live then { frequency with value, version := frequency.version + 1 } else frequency

/-- News since a version, if there are any. What was sent before the end comes first. -/
def Frequency.news? (frequency : Frequency) (seen : Nat) : Option FrequencyNews :=
  if frequency.version ≠ seen then some (.changed frequency.version)
  else if frequency.live then none
  else some .closed

/-- All around a procedure. Endings and notices are kept with their times, the endings in
order of time, the notices latest first. -/
structure Stage (κ : Type) where
  world : κ
  now : Nat := 0
  stopped : Bool := false
  readings : Nat := 0
  frequency : Frequency := { value := .ofSeconds 86400 }
  metrics : Metrics := {}
  notices : List (Nat × Notice) := []
  endings : List (Nat × Ending) := []
  heeded : Nat := 0

/-- A world that answers calls. An answer may request a stop, like all else on the stage. -/
class World (κ : Type) where
  call : (call : Call) → Stage κ → Answer call.Reply × Stage κ

namespace Stage

variable {κ : Type}

/-- The wall clock at the first reading. -/
def dawn : Timestamp := ⟨1700000000, 0⟩

/-- Nanoseconds that pass between two readings of a clock. -/
def readingTime : Nat := 1000

def read (stage : Stage κ) : Stage κ := { stage with readings := stage.readings + 1 }

def steadyTime (stage : Stage κ) : Nat := stage.readings * readingTime

def wallTime (stage : Stage κ) : Timestamp := dawn.plus stage.steadyTime

def inWorld {α : Type} (change : StateM κ α) (stage : Stage κ) : α × Stage κ :=
  let (result, world) := change stage.world
  (result, { stage with world })

def answer [MarkerStore (StateM κ)] (stage : Stage κ) : (asked : Prompt) → asked.Reply × Stage κ
  | .stopRequested => (stage.stopped, stage)
  | .requestStop => ((), { stage with stopped := true })
  | .timer => (stage.now, stage)
  | .steadyClock => (stage.read.steadyTime, stage.read)
  | .wallClock => (stage.read.wallTime, stage.read)
  | .frequency => (stage.frequency.value, stage)
  | .readMarker marker => stage.inWorld (MarkerStore.read marker)
  | .writeMarker marker text => stage.inWorld (MarkerStore.write marker text)
  | .removeMarker marker => stage.inWorld (MarkerStore.remove marker)
  | .count counter => ((), { stage with metrics := stage.metrics.bump counter })
  | .notice said => ((), { stage with notices := (stage.now, said) :: stage.notices })

def requestStop (stage : Stage κ) : Stage κ := { stage with stopped := true }

/-- Moves the timer, never back. -/
def moveTo (stage : Stage κ) (time : Nat) : Stage κ := { stage with now := max stage.now time }

end Stage

end QuorumWarden
