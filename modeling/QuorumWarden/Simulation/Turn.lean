import QuorumWarden.Simulation.Stage

/-! One turn of a procedure on a stage: it runs until it ends or has to wait, and what is
left of it is the procedure itself. -/

namespace QuorumWarden

/-- What comes of a wait: its reply, or another wait whose reply leads to it. -/
inductive Attempt (wait : Wait) where
  | ready (reply : wait.Reply)
  | held (rest : Wait) (back : rest.Reply → wait.Reply)

namespace Stage

variable {κ : Type} {α : Type} [World κ]

/-- Runs a strand as far as its calls are answered at once. -/
def runStrand (stage : Stage κ) : Exchange (Outcome Report) → (Outcome Report ⊕ Strand) × Stage κ
  | .done outcome => (.inl outcome, stage)
  | .ask made next =>
    match World.call made stage with
    | (.now reply, stage) => stage.runStrand (next reply)
    | (.later time reply, stage) =>
      if time ≤ stage.now then stage.runStrand (next reply) else (.inr ⟨some time, next reply⟩, stage)
    | (.never, stage) => (.inr ⟨none, .ask made next⟩, stage)

def Strand.isReady (strand : Strand) (now : Nat) : Bool := strand.wakesAt.any (· ≤ now)

/-- Runs the strands that are ready, in their order, up to the first failure. Gives what
was heard and the strands that are left. -/
def runStrands (stage : Stage κ) : List (Outcome Report) → List Strand →
    (List (Outcome Report) × List Strand) × Stage κ
  | heard, [] => ((heard, []), stage)
  | heard, strand :: rest =>
    if Strand.isReady strand stage.now then
      match stage.runStrand strand.rest with
      | (.inl (.error failure), stage) => ((heard ++ [.error failure], []), stage)
      | (.inl (.ok report), stage) => stage.runStrands (heard ++ [.ok report]) rest
      | (.inr held, stage) =>
        let ((heard, others), stage) := stage.runStrands heard rest
        ((heard, if heard.any (!·.isOk) then [] else held :: others), stage)
    else
      let ((heard, others), stage) := stage.runStrands heard rest
      ((heard, if heard.any (!·.isOk) then [] else strand :: others), stage)

def attempt (stage : Stage κ) : (wait : Wait) → Attempt wait × Stage κ
  | .call made =>
    match World.call made stage with
    | (.now reply, stage) => (.ready reply, stage)
    | (.later time reply, stage) =>
      (if time ≤ stage.now then .ready reply else .held (.sleepUntil time) fun () => reply, stage)
    | (.never, stage) => (.held .forever Empty.elim, stage)
  | .gather heard strands =>
    let ((heard, strands), stage) := stage.runStrands heard strands
    (if strands.isEmpty then .ready heard else .held (.gather heard strands) id, stage)
  | .sleepUntil time => (if time ≤ stage.now then .ready () else .held (.sleepUntil time) id, stage)
  | .frequencyNews seen deadline =>
    let outcome := match stage.frequency.news? seen with
      | some news => .ready news
      | none => if deadline ≤ stage.now then .ready .elapsed else .held (.frequencyNews seen deadline) id
    (outcome, stage)
  | .ending =>
    match stage.endings[stage.heeded]? with
    | some (_, ending) => (.ready ending, { stage with heeded := stage.heeded + 1 })
    | none => (.held .ending id, stage)
  | .forever => (.held .forever id, stage)

variable [MarkerStore (StateM κ)]

/-- Runs a procedure until it waits. A wait that gives way to a stop does so at once when
the stop came while the procedure was running. -/
def poll (stage : Stage κ) : Procedure α → Procedure α × Stage κ
  | .done value => (.done value, stage)
  | .ask (.prompt asked) next =>
    let (reply, stage) := stage.answer asked
    stage.poll (next reply)
  | .ask (.await wait) next =>
    match stage.attempt wait with
    | (.ready reply, stage) => stage.poll (next reply)
    | (.held rest back, stage) => (.ask (.await rest) fun reply => next (back reply), stage)
  | .ask (.awaitOrStop wait) next =>
    match stage.attempt wait with
    | (.ready reply, stage) => stage.poll (next (some reply))
    | (.held rest back, stage) =>
      if stage.stopped then stage.poll (next none)
      else (.ask (.awaitOrStop rest) fun reply => next (reply.map back), stage)

/-- Runs on a procedure that has been waiting. A stop goes before the reply. -/
def resume (stage : Stage κ) : Procedure α → Procedure α × Stage κ
  | .ask (.awaitOrStop wait) next =>
    if stage.stopped then stage.poll (next none) else stage.poll (.ask (.awaitOrStop wait) next)
  | procedure => stage.poll procedure

/-- When a wait ends by itself, if it does. -/
def wakesAt : Wait → Option Nat
  | .sleepUntil time => some time
  | .frequencyNews _ deadline => some deadline
  | .gather _ strands => (strands.filterMap Strand.wakesAt).min?
  | .call _ | .ending | .forever => none

def isReady (stage : Stage κ) : Wait → Bool
  | .call _ => true
  | .ending => stage.heeded < stage.endings.length
  | .frequencyNews seen deadline => (stage.frequency.news? seen).isSome || deadline ≤ stage.now
  | wait => (wakesAt wait).any (· ≤ stage.now)

end Stage

namespace Procedure

variable {κ : Type} {α : Type}

def wakesAt : Procedure α → Option Nat
  | .ask (.await wait) _ => Stage.wakesAt wait
  | .ask (.awaitOrStop wait) _ => Stage.wakesAt wait
  | _ => none

/-- Whether another turn leads further. -/
def isReady (stage : Stage κ) : Procedure α → Bool
  | .ask (.await wait) _ => stage.isReady wait
  | .ask (.awaitOrStop wait) _ => stage.stopped || stage.isReady wait
  | _ => true

end Procedure

namespace Stage

variable {κ : Type} {α : Type} [World κ] [MarkerStore (StateM κ)]

def value? : Procedure α → Option α
  | .done value => some value
  | _ => none

/-- Runs a procedure alone, over at most so many waits. The timer jumps to where the wait
ends, or to the stop if that comes before. -/
def runWaits (stopAt : Option Nat) : (waits : Nat) → Stage κ → Procedure α → Option α × Stage κ
  | 0, stage, procedure => (value? procedure, stage)
  | waits + 1, stage, procedure =>
    let (rest, stage) := stage.resume procedure
    match value? rest with
    | some value => (some value, stage)
    | none =>
      let stop := if stage.stopped then none else stopAt
      match stop, rest.wakesAt with
      | some stop, some wake =>
        if stop < wake then runWaits stopAt waits (stage.moveTo stop).requestStop rest
        else runWaits stopAt waits (stage.moveTo wake) rest
      | some stop, none => runWaits stopAt waits (stage.moveTo stop).requestStop rest
      | none, some wake => runWaits stopAt waits (stage.moveTo wake) rest
      | none, none => (none, stage)

/-- Runs a procedure alone; a stop for the present instant comes before it begins. -/
def run (stage : Stage κ) (stopAt : Option Nat) (waits : Nat) (procedure : Procedure α) :
    Option α × Stage κ :=
  runWaits stopAt waits (if stopAt.any (· ≤ stage.now) then stage.requestStop else stage) procedure

end Stage

end QuorumWarden
