import QuorumWarden.Proofs.FreeRuns
import QuorumWarden.Watch.Loop

/-! What tasks ask for, whatever they are answered, and how they go round and round. A look for a stop or a wait that
gives way to one is all that a stop adds to a task. -/

namespace QuorumWarden

namespace Action

variable {α β : Type}

/-- What is left of an action once a call of it was answered or given up. -/
def heard (failed : Failure → Outcome β) (next : α → Procedure (Outcome β)) : Option (Outcome α) → Procedure (Outcome β)
  | none => .done (.error .cancelled)
  | some (.error failure) => .done (failed failure)
  | some (.ok value) => next value

/-- A look for a stop, which ends an action as cancelled. -/
def unlessCancelled (onward : Procedure (Outcome α)) : Procedure (Outcome α) :=
  .ask (.prompt .stopRequested) fun stop => if stop then .done (.error .cancelled) else onward

/-- What comes of a settled action that gives way to a stop. -/
def settling : Option (Outcome α) → Procedure (Outcome (Outcome α))
  | none => .done (.error .cancelled)
  | some (.ok value) => .done (.ok (.ok value))
  | some (.error failure) => .done (if failure.isCancelled then .error failure else .ok (.error failure))

theorem settled_guarded_run (action : Action α) : (settled (guarded action)).run =
    .ask (.prompt .stopRequested) fun stop =>
      if stop then .done (.error .cancelled) else action.run.interruptible >>= settling := by
  change (guarded action).run >>= _ = _
  rw [guarded_run, bind_assoc]
  refine congrArg (Program.ask _) (funext fun stop => ?_)
  cases stop with
  | true => rfl
  | false =>
    refine congrArg (action.run.interruptible >>= ·) (funext fun ended => ?_)
    rcases ended with _ | _ | _ <;> rfl

variable {trace : List (Program.Event Request.Reply)} {outcome : Outcome β}

theorem runs_unlessCancelled {onward : Procedure (Outcome β)}
    (ran : Program.Runs Law.free (unlessCancelled onward) () trace outcome ()) :
    trace = [⟨.prompt .stopRequested, true⟩] ∨
      ∃ rest, trace = ⟨.prompt .stopRequested, false⟩ :: rest ∧ Program.Runs Law.free onward () rest outcome () := by
  obtain ⟨stop, rest, rfl, more⟩ := Program.runs_ask_iff.mp ran
  cases stop with
  | true =>
    obtain ⟨rfl, _, _⟩ := more.of_done
    exact Or.inl rfl
  | false => exact Or.inr ⟨rest, rfl, more⟩

theorem runs_heard {failed : Failure → Outcome β} {next : α → Procedure (Outcome β)} {reply : Option (Outcome α)}
    (ran : Program.Runs Law.free (heard failed next reply) () trace outcome ()) :
    trace = [] ∨ ∃ value, Program.Runs Law.free (next value) () trace outcome () := by
  rcases reply with _ | failure | value
  · exact Or.inl ran.of_done.1
  · exact Or.inl ran.of_done.1
  · exact Or.inr ⟨value, ran⟩

end Action

theorem Program.Event.mem_map_yielding {trace : List (Event Request.Reply)} {asked : Prompt} {reply : asked.Reply} :
    ⟨.prompt asked, reply⟩ ∈ trace.map yielding ↔ ⟨.prompt asked, reply⟩ ∈ trace := by
  refine ⟨fun member => ?_, fun member => List.mem_map.mpr ⟨_, member, rfl⟩⟩
  obtain ⟨⟨request, heard⟩, member, same⟩ := List.mem_map.mp member
  cases request with
  | prompt other => exact same ▸ member
  | await wait => cases same
  | awaitOrStop wait => cases same

namespace Procedure

variable {α β : Type} {procedure : Procedure α}

theorem interruptible_await (wait : Wait) (next : wait.Reply → Procedure α) :
    interruptible (.ask (.await wait) next) =
      .ask (.awaitOrStop wait) fun reply => reply.elim (.done none) fun heard => interruptible (next heard) := by
  rw [interruptible]
  refine congrArg (Program.ask _) (funext fun reply => ?_)
  cases reply <;> rfl

theorem interruptible_awaitOrStop (wait : Wait) (next : Option wait.Reply → Procedure α) :
    interruptible (.ask (.awaitOrStop wait) next) =
      .ask (.awaitOrStop wait) fun reply => reply.elim (.done none) fun heard => interruptible (next (some heard)) := by
  rw [interruptible]
  refine congrArg (Program.ask _) (funext fun reply => ?_)
  cases reply <;> rfl

/-- A stop in the first part is the end of both. -/
def onward (next : α → Procedure β) : Option α → Procedure (Option β)
  | none => .done none
  | some value => interruptible (next value)

theorem interruptible_bind (procedure : Procedure α) (next : α → Procedure β) :
    interruptible (procedure >>= next) = procedure.interruptible >>= onward next := by
  induction procedure with
  | done value => rfl
  | ask request rest ih =>
    cases request with
    | prompt asked => exact congrArg (Program.ask _) (funext ih)
    | await wait =>
      rw [Program.ask_bind, interruptible_await, interruptible_await, Program.ask_bind]
      refine congrArg (Program.ask _) (funext fun reply => ?_)
      cases reply with
      | none => rfl
      | some heard => exact ih heard
    | awaitOrStop wait =>
      rw [Program.ask_bind, interruptible_awaitOrStop, interruptible_awaitOrStop, Program.ask_bind]
      refine congrArg (Program.ask _) (funext fun reply => ?_)
      cases reply with
      | none => rfl
      | some heard => exact ih (some heard)

theorem pending_interruptible {wait : Wait} (pending : procedure.pending = some (.awaitOrStop wait)) :
    procedure.interruptible.pending = some (.awaitOrStop wait) := by
  cases procedure with
  | done value => cases pending
  | ask request next =>
    cases pending
    rw [interruptible_awaitOrStop]
    rfl

/-- What never waits otherwise than until a stop does the same where it is interruptible, as long as no stop comes. -/
theorem steps_interruptible {rest : Procedure α} {start ended : Unit} {trace : List (Program.Event Request.Reply)}
    (steps : Program.Steps Law.free procedure start trace rest ended)
    (unstopped : ∀ event ∈ trace, event.yielding = event ∧ ¬event.stops) :
    Program.Steps Law.free procedure.interruptible start trace rest.interruptible ended := by
  induction steps with
  | refl => exact .refl
  | @ask request next before reply between trace rest after answered more ih =>
    obtain ⟨⟨yields, running⟩, others⟩ := List.forall_mem_cons.mp unstopped
    cases request with
    | prompt asked => exact .ask trivial (ih others)
    | await wait => cases yields
    | awaitOrStop wait =>
      cases reply with
      | none => exact absurd rfl running
      | some heard =>
        rw [interruptible]
        exact .ask trivial (ih others)

/-- Unless a stop is requested before, the call is the next thing that is asked for. -/
def HeadsFor (made : Call) : Procedure α → Prop
  | .ask (.prompt .stopRequested) next => HeadsFor made (next false)
  | .ask (.awaitOrStop (.call asked)) _ => asked = made
  | _ => False

theorem HeadsFor.bind {made : Call} (heads : procedure.HeadsFor made) (next : α → Procedure β) :
    (procedure >>= next).HeadsFor made := by
  induction procedure with
  | done value => exact heads.elim
  | ask request rest ih =>
    cases request with
    | prompt asked =>
      cases asked with
      | stopRequested => exact ih false heads
      | _ => exact heads.elim
    | await wait => exact heads.elim
    | awaitOrStop wait =>
      cases wait with
      | call asked => exact heads
      | _ => exact heads.elim

theorem HeadsFor.steps {made : Call} (heads : procedure.HeadsFor made) : ∃ trace left,
    Program.Steps Law.free procedure () trace left () ∧ (∀ event ∈ trace, event = ⟨.prompt .stopRequested, false⟩) ∧
      left.pending = some (.awaitOrStop (.call made)) := by
  induction procedure with
  | done value => exact heads.elim
  | ask request rest ih =>
    cases request with
    | prompt asked =>
      cases asked with
      | stopRequested =>
        obtain ⟨trace, left, steps, looks, waits⟩ := ih false heads
        exact ⟨_ :: trace, left, .ask trivial steps, List.forall_mem_cons.mpr ⟨rfl, looks⟩, waits⟩
      | _ => exact heads.elim
    | await wait => exact heads.elim
    | awaitOrStop wait =>
      cases wait with
      | call asked =>
        obtain rfl : asked = made := heads
        exact ⟨[], _, .refl, nofun, rfl⟩
      | _ => exact heads.elim

/-- The procedure asks for nothing else, whatever it is answered. -/
abbrev Asks (allowed : Request → Prop) (procedure : Procedure α) : Prop :=
  Program.Holds Law.free (fun request _ => allowed request) (fun _ _ => True) procedure ()

variable {allowed wider : Request → Prop}

theorem Asks.done {value : α} : Asks allowed (.done value : Procedure α) := trivial

theorem Asks.ask {request : Request} {next : request.Reply → Procedure α} (may : allowed request)
    (onward : ∀ reply, Asks allowed (next reply)) : Asks allowed (.ask request next) :=
  ⟨may, fun reply _ _ => onward reply⟩

theorem Asks.bind {next : α → Procedure β} (asks : Asks allowed procedure)
    (onward : ∀ value, Asks allowed (next value)) : Asks allowed (procedure >>= next) :=
  Program.Holds.bind (asks.mono (fun _ _ may => may) fun value _ _ => onward value)

theorem Asks.imp (asks : Asks allowed procedure) (implies : ∀ request, allowed request → wider request) :
    Asks wider procedure := Program.Holds.mono asks (fun request _ => implies request) fun _ _ _ => trivial

theorem Asks.holds {σ : Type} {law : Law Request Request.Reply σ} {state : σ} (asks : Asks allowed procedure) :
    Program.Holds law (fun request _ => allowed request) (fun _ _ => True) procedure state := by
  induction procedure generalizing state with
  | done value => trivial
  | ask request next ih => exact ⟨asks.1, fun reply _ _ => ih reply (asks.2 reply () trivial)⟩

theorem Asks.unlessCancelled {onward : Procedure (Outcome α)} (looks : allowed (.prompt .stopRequested))
    (asks : Asks allowed onward) : Asks allowed (Action.unlessCancelled onward) := by
  refine .ask looks fun stop => ?_
  cases stop with
  | true => exact .done
  | false => exact asks

theorem Asks.heard {failed : Failure → Outcome β} {next : α → Procedure (Outcome β)}
    (onward : ∀ value, Asks allowed (next value)) (reply : Option (Outcome α)) :
    Asks allowed (Action.heard failed next reply) := by
  rcases reply with _ | failure | value
  · exact .done
  · exact .done
  · exact onward value

theorem Asks.settled {action : Action α} (asks : Asks allowed action.run) :
    Asks allowed (Action.settled action).run := by
  refine .bind asks fun outcome => ?_
  cases outcome <;> exact .done

theorem Asks.interruptible (asks : Asks allowed procedure)
    (yields : ∀ wait, allowed (.await wait) → allowed (.awaitOrStop wait)) : Asks allowed procedure.interruptible := by
  have yields : Action.Yields Law.free (fun request _ => allowed request) fun _ => True :=
    ⟨fun wait _ => yields wait, fun _ _ _ _ _ => trivial, fun _ _ _ _ _ => trivial⟩
  exact (Action.Holds.interruptible yields asks).mono (fun _ _ may => may) fun _ _ _ => trivial

/-- What may be waited for may be waited for until a stop. -/
theorem Asks.guarded {action : Action α} (asks : Asks allowed action.run) (looks : allowed (.prompt .stopRequested))
    (yields : ∀ wait, allowed (.await wait) → allowed (.awaitOrStop wait)) :
    Asks allowed (Action.guarded action).run := by
  rw [Action.guarded_run]
  refine .bind (.ask looks fun stop => ?_) fun ended => ?_
  · cases stop with
    | true => exact .done
    | false => exact asks.interruptible yields
  · cases ended <;> exact .done

end Procedure

/-- Rounds one after the other, each from where the one before it ended. What each began with and heard is told. -/
inductive Rounds {σ τ : Type} (law : Law Request Request.Reply σ) (round : τ → Procedure (Round τ)) :
    τ → σ → List (τ × List (Program.Event Request.Reply)) → τ → σ → Prop where
  | start {state begun} : Rounds law round state begun [] state begun
  | again {state next begun between after rounds trace} (more : Rounds law round state begun rounds next between)
      {last : τ} (ran : Program.Runs law (round next) between trace (.again last) after) :
      Rounds law round state begun (rounds ++ [(next, trace)]) last after

/-- One comes from there to here in rounds. -/
def Laps {σ τ : Type} (law : Law Request Request.Reply σ) (round : τ → Procedure (Round τ)) (state : τ) (begun : σ)
    (last : τ) (after : σ) : Prop := ∃ rounds, Rounds law round state begun rounds last after

theorem Laps.start {σ τ : Type} {law : Law Request Request.Reply σ} {round : τ → Procedure (Round τ)} {state : τ}
    {begun : σ} : Laps law round state begun state begun := ⟨[], .start⟩

/-- Whatever it is answered, a task gets an answer to all it asks for and ends like this after finitely many rounds. -/
inductive Finishes {σ τ : Type} (law : Law Request Request.Reply σ) (round : τ → Procedure (Round τ))
    (outcome : Outcome Unit) : Procedure (Round τ) → σ → Prop where
  | finished {state} : Finishes law round outcome (.done (.finished outcome)) state
  | again {next state} (more : Finishes law round outcome (round next) state) :
      Finishes law round outcome (.done (.again next)) state
  | ask {request next state} (answers : law.Answers request state)
      (onward : ∀ reply after, law request state reply after → Finishes law round outcome (next reply) after) :
      Finishes law round outcome (.ask request next) state

theorem Finishes.of_runs {σ τ : Type} {law : Law Request Request.Reply σ} {round : τ → Procedure (Round τ)}
    {outcome : Outcome Unit} {procedure : Procedure (Round τ)} {before : σ}
    (answered : Program.Holds law law.Answers (fun _ _ => True) procedure before)
    (leads : ∀ {trace result after}, Program.Runs law procedure before trace result after →
      Finishes law round outcome (.done result) after) : Finishes law round outcome procedure before := by
  induction procedure generalizing before with
  | done result => exact leads .refl
  | ask request next ih =>
    refine .ask answered.1 fun reply after heard => ?_
    exact ih reply (answered.2 reply after heard) fun ran => leads (.ask heard ran)

end QuorumWarden
