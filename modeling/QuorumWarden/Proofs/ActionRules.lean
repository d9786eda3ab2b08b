import QuorumWarden.Procedure
import QuorumWarden.Proofs.ProgramRuns

/-! Rules for actions among surroundings. A stop is one more way for a wait to end, and it
may leave a call half done. -/

namespace QuorumWarden

/-- Exchanges side by side. Any of them may go on next, and the first failure ends them all. -/
inductive Gathers {σ : Type} (call : (made : Call) → σ → made.Reply → σ → Prop) :
    List (Outcome Report) → List Strand → σ → List (Outcome Report) → List Strand → σ → Prop where
  | refl {heard strands state} : Gathers call heard strands state heard strands state
  | ask {heard front back wakesAt made next before reply between heard' rest after}
      (answered : call made before reply between)
      (more : Gathers call heard (front ++ ⟨wakesAt, next reply⟩ :: back) between heard' rest after) :
      Gathers call heard (front ++ ⟨wakesAt, .ask made next⟩ :: back) before heard' rest after
  | report {heard front back wakesAt report before heard' rest after}
      (more : Gathers call (heard ++ [.ok report]) (front ++ back) before heard' rest after) :
      Gathers call heard (front ++ ⟨wakesAt, .done (.ok report)⟩ :: back) before heard' rest after
  | fail {heard front back wakesAt failure state} :
      Gathers call heard (front ++ ⟨wakesAt, .done (.error failure)⟩ :: back) state (heard ++ [.error failure]) [] state

structure Surroundings (σ : Type) where
  call : (made : Call) → σ → made.Reply → σ → Prop
  prompt : (asked : Prompt) → σ → asked.Reply → σ → Prop

namespace Surroundings

variable {σ : Type} (surroundings : Surroundings σ)

def wait : (wait : Wait) → σ → wait.Reply → σ → Prop
  | .call made => surroundings.call made
  | .gather heard strands => fun before reply after => Gathers surroundings.call heard strands before reply [] after
  | _ => fun before _ after => after = before

/-- A wait that was given up may have come some of its way, or all of it unheard. -/
def part : Wait → σ → σ → Prop
  | .call made => fun before after => after = before ∨ ∃ reply, surroundings.call made before reply after
  | .gather heard strands => fun before after =>
    ∃ heard' rest, Gathers surroundings.call heard strands before heard' rest after
  | _ => fun before after => after = before

def law : Law Request Request.Reply σ
  | .prompt asked => surroundings.prompt asked
  | .await wait => surroundings.wait wait
  | .awaitOrStop wait => fun before reply after =>
    match reply with
    | some reply => surroundings.wait wait before reply after
    | none => surroundings.part wait before after

end Surroundings

/-- The call that is asked for, whether or not the wait for it gives way to a stop. -/
def Request.call? : Request → Option Call
  | .await (.call made) => some made
  | .awaitOrStop (.call made) => some made
  | _ => none

namespace Program.Event

private def failureOf {α : Type} : Outcome α → Option Failure
  | .ok _ => none
  | .error failure => some failure

def failure? : Event Request.Reply → Option Failure
  | ⟨.await (.call _), reply⟩ => failureOf reply
  | ⟨.awaitOrStop (.call _), some reply⟩ => failureOf reply
  | ⟨.prompt (.readMarker _), reply⟩ => failureOf reply
  | ⟨.prompt (.writeMarker _ _), reply⟩ => failureOf reply
  | ⟨.prompt (.removeMarker _), reply⟩ => failureOf reply
  | _ => none

def stops : Event Request.Reply → Bool
  | ⟨.prompt .stopRequested, stop⟩ => stop
  | ⟨.awaitOrStop _, none⟩ => true
  | _ => false

end Program.Event

namespace Action

variable {σ α β : Type} {law : Law Request Request.Reply σ} {asks : Request → σ → Prop}

/-- `good` is true of every result and `bad` of every failure. -/
structure Holds (law : Law Request Request.Reply σ) (asks : Request → σ → Prop) (good : α → σ → Prop)
    (bad : Failure → σ → Prop) (action : Action α) (state : σ) : Prop where
  run : Program.Holds law asks (fun outcome after =>
    match outcome with
    | .ok value => good value after
    | .error failure => bad failure after) action.run state

variable {good : α → σ → Prop} {bad : Failure → σ → Prop} {state : σ}

theorem Holds.mono {action : Action α} {other : Request → σ → Prop} {better : α → σ → Prop}
    {worse : Failure → σ → Prop} (holds : Holds law asks good bad action state)
    (asked : ∀ request state, asks request state → other request state)
    (implies : ∀ value state, good value state → better value state)
    (fails : ∀ failure state, bad failure state → worse failure state) : Holds law other better worse action state := by
  refine ⟨Program.Holds.mono holds.run asked fun outcome after ended => ?_⟩
  cases outcome with
  | ok value => exact implies value after ended
  | error failure => exact fails failure after ended

theorem Holds.imp {action : Action α} {better : α → σ → Prop} (holds : Holds law asks good bad action state)
    (implies : ∀ value state, good value state → better value state) : Holds law asks better bad action state :=
  holds.mono (fun _ _ asked => asked) implies fun _ _ failed => failed

theorem Holds.pure {value : α} (ended : good value state) : Holds law asks good bad (pure value) state := ⟨ended⟩

theorem Holds.throw {failure : Failure} (ended : bad failure state) :
    Holds law asks good bad (throw failure : Action α) state := ⟨ended⟩

theorem Holds.bind {action : Action β} {next : β → Action α}
    (holds : Holds law asks (fun value => Holds law asks good bad (next value)) bad action state) :
    Holds law asks good bad (action >>= next) state := by
  refine ⟨Program.Holds.bind (Program.Holds.mono holds.run (fun _ _ asked => asked) fun outcome after ended => ?_)⟩
  cases outcome with
  | ok value => exact Holds.run ended
  | error failure => exact ended

theorem Holds.andThen {action : Action β} {next : β → Action α} {middle : β → σ → Prop}
    (first : Holds law asks middle bad action state)
    (onward : ∀ value after, middle value after → Holds law asks good bad (next value) after) :
    Holds law asks good bad (action >>= next) state := Holds.bind (first.imp onward)

theorem Holds.inContext {action : Action α} {context : String}
    (holds : Holds law asks good (fun failure => bad (failure.within context)) action state) :
    Holds law asks good bad (inContext context action) state := by
  refine ⟨Program.Holds.bind (Program.Holds.mono holds.run (fun _ _ asked => asked) fun outcome after ended => ?_)⟩
  cases outcome with
  | ok value => exact ended
  | error failure => exact ended

theorem Holds.lift {procedure : Procedure α} (holds : Program.Holds law asks good procedure state) :
    Holds law asks good bad (liftM procedure : Action α) state :=
  ⟨Program.Holds.bind (Program.Holds.mono holds (fun _ _ asked => asked) fun _ _ ended => ended)⟩

theorem Holds.liftExcept {outcome : Outcome α} (ok : ∀ value, outcome = .ok value → good value state)
    (error : ∀ failure, outcome = .error failure → bad failure state) :
    Holds law asks good bad (liftExcept outcome) state := by
  cases outcome with
  | ok value => exact ⟨ok value rfl⟩
  | error failure => exact ⟨error failure rfl⟩

theorem Holds.request (made : Call) {good : made.Payload → σ → Prop} (asked : asks (.await (.call made)) state)
    (ok : ∀ value after, law (.await (.call made)) state (.ok value) after → good value after)
    (error : ∀ failure after, law (.await (.call made)) state (.error failure) after → bad failure after) :
    Holds law asks good bad (request made) state := by
  refine ⟨asked, fun reply after answered => ?_⟩
  cases reply with
  | ok value => exact ok value after answered
  | error failure => exact error failure after answered

theorem Holds.settled {action : Action α} {good : Outcome α → σ → Prop}
    (holds : Holds law asks (fun value => good (.ok value))
      (fun failure after => if failure.isCancelled then bad failure after else good (.error failure) after) action state) :
    Holds law asks good bad (settled action) state := by
  refine ⟨Program.Holds.bind (Program.Holds.mono holds.run (fun _ _ asked => asked) fun outcome after ended => ?_)⟩
  cases outcome with
  | ok value => exact ended
  | error failure =>
    simp only at ended ⊢
    split at ended
    next cancelled =>
      rw [if_pos cancelled]
      exact ended
    next other =>
      rw [if_neg other]
      exact ended

/-- A wait may give way to a stop: it asks for the same and hears the same, and what it
leaves then is as after any other stop. -/
structure Yields (law : Law Request Request.Reply σ) (asks : Request → σ → Prop) (stopped : σ → Prop) : Prop where
  asked : ∀ wait state, asks (.await wait) state → asks (.awaitOrStop wait) state
  heard : ∀ wait before reply after, law (.awaitOrStop wait) before (some reply) after →
    law (.await wait) before reply after
  left : ∀ wait before after, asks (.awaitOrStop wait) before → law (.awaitOrStop wait) before none after → stopped after

theorem Holds.interruptible {stopped : σ → Prop} (yields : Yields law asks stopped) {procedure : Procedure α}
    (holds : Program.Holds law asks good procedure state) :
    Program.Holds law asks (fun value after => value.elim (stopped after) fun value => good value after)
      procedure.interruptible state := by
  induction procedure generalizing state with
  | done value => exact holds
  | ask request next ih =>
    obtain ⟨asked, rest⟩ := holds
    cases request with
    | prompt prompt => exact ⟨asked, fun reply after answered => ih reply (rest reply after answered)⟩
    | await wait =>
      have asked := yields.asked wait state asked
      rw [Procedure.interruptible]
      refine ⟨asked, fun reply after answered => ?_⟩
      cases reply with
      | none => exact yields.left wait state after asked answered
      | some reply => exact ih reply (rest reply after (yields.heard wait state reply after answered))
    | awaitOrStop wait =>
      rw [Procedure.interruptible]
      refine ⟨asked, fun reply after answered => ?_⟩
      cases reply with
      | none => exact yields.left wait state after asked answered
      | some reply => exact ih (some reply) (rest (some reply) after answered)

/-- The stop is looked at first; the action itself starts from what that leaves. -/
theorem Holds.guarded_entered {action : Action α} (yields : Yields law asks (bad .cancelled))
    (asked : asks (.prompt .stopRequested) state)
    (refused : ∀ after, law (.prompt .stopRequested) state true after → bad .cancelled after)
    (entered : ∀ after, law (.prompt .stopRequested) state false after → Holds law asks good bad action after) :
    Holds law asks good bad (guarded action) state := by
  refine ⟨Program.Holds.bind (Program.Holds.bind ⟨asked, fun stop after answered => ?_⟩)⟩
  cases stop with
  | true => exact refused after answered
  | false =>
    change Program.Holds law asks _ action.run.interruptible after
    have holds := interruptible yields (entered after answered).run
    refine Program.Holds.mono holds (fun _ _ asked => asked) fun value after ended => ?_
    cases value with
    | none => exact ended
    | some outcome => exact ended

theorem Holds.guarded {action : Action α} (yields : Yields law asks (bad .cancelled))
    (asked : asks (.prompt .stopRequested) state)
    (prompt : ∀ stop after, law (.prompt .stopRequested) state stop after →
      after = state ∧ (stop = true → bad .cancelled state))
    (holds : Holds law asks good bad action state) : Holds law asks good bad (guarded action) state := by
  apply Holds.guarded_entered yields asked
  · intro after answered
    obtain ⟨rfl, atOnce⟩ := prompt true after answered
    exact atOnce rfl
  · intro after answered
    obtain ⟨rfl, _⟩ := prompt false after answered
    exact holds

/-- A sequence fails in its first part, or goes on from the result of that. -/
theorem runs_of_bind {action : Action β} {next : β → Action α} {outcome : Outcome α} {before after : σ}
    {trace : List (Program.Event Request.Reply)}
    (ran : Program.Runs law (action >>= next).run before trace outcome after) :
    (∃ failure, outcome = .error failure ∧ Program.Runs law action.run before trace (.error failure) after) ∨
      ∃ value between first second, trace = first ++ second ∧
        Program.Runs law action.run before first (.ok value) between ∧
        Program.Runs law (next value).run between second outcome after := by
  obtain ⟨middle, between, first, second, rfl, inside, onward⟩ := Program.Runs.of_bind ran
  cases middle with
  | error failure =>
    obtain ⟨rfl, ended, rfl⟩ := Program.Steps.of_done onward
    cases ended
    rw [List.append_nil]
    exact Or.inl ⟨failure, rfl, inside⟩
  | ok value => exact Or.inr ⟨value, between, first, second, rfl, inside, onward⟩

theorem runs_bind {action : Action β} {next : β → Action α} {value : β} {rest : Procedure (Outcome α)}
    {before between after : σ} {first second : List (Program.Event Request.Reply)}
    (ran : Program.Runs law action.run before first (.ok value) between)
    (onward : Program.Steps law (next value).run between second rest after) :
    Program.Steps law (action >>= next).run before (first ++ second) rest after :=
  Program.Runs.bind ran onward

/-- What a procedure does unstopped, it does as well where it would give way to a stop. -/
theorem steps_interruptible {surroundings : Surroundings σ} {procedure rest : Procedure α} {before after : σ}
    {trace : List (Program.Event Request.Reply)} (steps : Program.Steps surroundings.law procedure before trace rest after)
    (unstopped : ∀ event ∈ trace, ¬event.stops) :
    ∃ trace, Program.Steps surroundings.law procedure.interruptible before trace rest.interruptible after := by
  induction steps with
  | refl => exact ⟨[], .refl⟩
  | @ask request next before reply between trace rest after answered more ih =>
    obtain ⟨now, unstopped⟩ := List.forall_mem_cons.mp unstopped
    obtain ⟨trace, onward⟩ := ih unstopped
    cases request with
    | prompt asked => exact ⟨_, .ask answered onward⟩
    | await wait =>
      have heard : surroundings.law (.awaitOrStop wait) before (some reply) between := answered
      rw [Procedure.interruptible]
      exact ⟨_, .ask heard onward⟩
    | awaitOrStop wait =>
      rw [Procedure.interruptible]
      cases reply with
      | none => exact absurd rfl now
      | some reply =>
        have heard : surroundings.law (.awaitOrStop wait) before (some reply) between := answered
        exact ⟨_, .ask heard onward⟩

def orCancelled : Option (Outcome α) → Procedure (Outcome α)
  | some outcome => .done outcome
  | none => .done (.error .cancelled)

theorem guarded_run (action : Action α) : (guarded action).run = Procedure.unlessStopped action.run >>= orCancelled := by
  refine congrArg (Procedure.unlessStopped action.run >>= ·) (funext fun ended => ?_)
  cases ended with
  | none => rfl
  | some outcome => rfl

theorem steps_guarded {surroundings : Surroundings σ} {action : Action α} {rest : Procedure (Outcome α)}
    {before between after : σ} {trace : List (Program.Event Request.Reply)}
    (unasked : surroundings.prompt .stopRequested before false between)
    (steps : Program.Steps surroundings.law action.run between trace rest after) (unstopped : ∀ event ∈ trace, ¬event.stops) :
    ∃ trace, Program.Steps surroundings.law (guarded action).run before trace (rest.interruptible >>= orCancelled) after := by
  obtain ⟨trace, entered⟩ := steps_interruptible steps unstopped
  have looked : surroundings.law (.prompt .stopRequested) before false between := unasked
  have checked : Program.Steps surroundings.law (Procedure.unlessStopped action.run) before _ rest.interruptible after :=
    .ask looked entered
  rw [guarded_run]
  exact ⟨_, checked.bind_left _⟩

theorem runs_guarded {surroundings : Surroundings σ} {action : Action α} {value : α} {before between after : σ}
    {trace : List (Program.Event Request.Reply)} (unasked : surroundings.prompt .stopRequested before false between)
    (ran : Program.Runs surroundings.law action.run between trace (.ok value) after)
    (unstopped : ∀ event ∈ trace, ¬event.stops) :
    ∃ trace, Program.Runs surroundings.law (guarded action).run before trace (.ok value) after :=
  steps_guarded unasked ran unstopped

theorem interruptible_call (made : Call) :
    Procedure.interruptible (request made : Action made.Payload).run = .ask (.awaitOrStop (.call made)) .done := by
  change Procedure.interruptible (.ask (.await (.call made)) .done) = _
  rw [Procedure.interruptible]
  congr 1
  funext reply
  cases reply with
  | none => rfl
  | some reply => rfl

theorem settled_call_run (made : Call) :
    (settled (guarded (request made))).run = .ask (.prompt .stopRequested) fun stop =>
      if stop then .done (.error .cancelled)
      else .ask (.awaitOrStop (.call made)) fun
        | some (.ok value) => .done (.ok (.ok value))
        | some (.error failure) => .done (if failure.isCancelled then .error failure else .ok (.error failure))
        | none => .done (.error .cancelled) := by
  simp only [settled, guarded, ExceptT.run_mk, Procedure.unlessStopped, Procedure.prompt, Program.perform,
    Program.ask_bind, Program.done_bind]
  congr 1
  funext stop
  cases stop with
  | true => rfl
  | false =>
    simp only [Bool.false_eq_true, ↓reduceIte, interruptible_call, Program.ask_bind, Program.done_bind]
    congr 1
    funext reply
    rcases reply with _ | failure | value
    · rfl
    · rfl
    · rfl

/-- A call that was settled was answered, and not with a cancellation. -/
theorem settled_call {made : Call} {result : made.Reply} {before after : σ} {trace : List (Program.Event Request.Reply)}
    (ran : Program.Runs law (settled (guarded (request made))).run before trace (.ok result) after) :
    trace = [⟨.prompt .stopRequested, false⟩, ⟨.awaitOrStop (.call made), some result⟩] ∧
      ∀ failure, result = .error failure → failure.isCancelled = false := by
  rw [settled_call_run] at ran
  cases ran with
  | @ask _ _ _ stop _ _ _ _ _ more =>
    cases stop with
    | true => cases more
    | false =>
      cases more with
      | @ask _ _ _ reply _ _ _ _ _ more =>
        rcases reply with _ | failure | value
        · cases more
        · cases cancelled : failure.isCancelled with
          | true =>
            simp only [cancelled, ↓reduceIte] at more
            cases more
          | false =>
            simp only [cancelled, Bool.false_eq_true, ↓reduceIte] at more
            cases more
            exact ⟨rfl, by simpa using cancelled⟩
        · cases more
          exact ⟨rfl, by simp⟩

end Action

end QuorumWarden
