import QuorumWarden.Procedure

/-! A group of tasks that live and die together: when the first one ends, for whatever
reason, the others are stopped. -/

namespace QuorumWarden.Group

/-- What an ending says against the group. A cancelled task did as it was told. -/
def failure? : Ending → Option Failure
  | .returned _ (.ok ()) => none
  | .returned task (.error failure) =>
    if failure.isCancelled then none else some (failure.within ("task " ++ task ++ " failed"))
  | @Ending.brokenOff why => some ((Failure.external why).within "supervised task aborted")

/-- Waits for so many tasks, with the first failure so far, and stops the others as soon
as one ends. Later failures may be due to the stop. -/
def joinAfter : Nat → Option Failure → Action Unit
  | 0, none => return ()
  | 0, some failure => throw failure
  | tasks + 1, first => do
    let ending ← ExceptT.lift (Procedure.await .ending)
    Procedure.prompt .requestStop
    joinAfter tasks (first.or (failure? ending))

/-- Waits for all tasks; the first failure is the group's. -/
def join (tasks : Nat) : Action Unit := joinAfter tasks none

/-- The wait for a shutdown, which comes at a time or never. -/
def shutdown : Option Nat → Wait
  | some time => .sleepUntil time
  | none => .forever

/-- Lets all tasks work until a shutdown or a stop, whichever is first. A shutdown stops them, and then
they are joined. -/
def supervise (shutdownAt : Option Nat) (tasks : Nat) : Action Unit := do
  let came ← ExceptT.lift (Procedure.unlessStopped (Procedure.await (shutdown shutdownAt)))
  if came.isSome then Procedure.prompt .requestStop
  join tasks

end QuorumWarden.Group
