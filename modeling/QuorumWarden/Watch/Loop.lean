import QuorumWarden.Procedure

/-! Doing something at a fixed interval until a stop. Ticks never overlap: a slow one
moves the next one. A failed tick is counted, and the next tick tries again. -/

namespace QuorumWarden

/-- What comes after one round of something that goes round and round. -/
inductive Round (σ : Type) where
  | again (state : σ)
  | finished (outcome : Outcome Unit)
  | brokenOff (why : String)

def Round.map {σ τ : Type} (f : σ → τ) : Round σ → Round τ
  | .again state => .again (f state)
  | .finished outcome => .finished outcome
  | .brokenOff why => .brokenOff why

namespace Loop

/-- When the next tick is due, and what the ticks keep between them. -/
structure State (σ : Type) where
  deadline : Nat
  kept : σ

/-- The shortest interval, in milliseconds. -/
def shortest : Nat := 100

/-- How late a tick may be noticed without moving the ones after it. -/
def tolerance : Nat := 5

def nextDeadline (interval deadline noticed : Nat) : Nat :=
  (if deadline + tolerance < noticed then noticed else deadline) + max interval shortest

/-- Waits for the deadline and ticks. A cancelled tick ends the loop in good order. -/
def round {σ : Type} (interval : Nat) (tick : σ → Procedure (Outcome Unit × σ)) (state : State σ) :
    Procedure (Round (State σ)) := do
  match ← Procedure.unlessStopped (Procedure.await (.sleepUntil state.deadline)) with
  | none => return .finished (.ok ())
  | some () =>
    let noticed ← Procedure.prompt .timer
    let announced := do
      Procedure.notice .tickBegun
      let ticked ← tick state.kept
      Procedure.notice .tickEnded
      return ticked
    match ← Procedure.unlessStopped announced with
    | none => return .finished (.ok ())
    | some (outcome, kept) =>
      let next := .again ⟨nextDeadline interval state.deadline noticed, kept⟩
      match outcome with
      | .ok () =>
        Procedure.count .ticksOk
        return next
      | .error failure =>
        if failure.isCancelled then return .finished (.ok ())
        else
          Procedure.count .ticksFailed
          return next

end Loop

end QuorumWarden
