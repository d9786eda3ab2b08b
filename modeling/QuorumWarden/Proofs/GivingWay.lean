import QuorumWarden.Proofs.ActionRules
import QuorumWarden.Simulation.DutyCrew

/-! Procedures that give way to a stop wherever they wait. Once a stop is requested, the next turn of one that waits
ends it, and nothing else comes of that turn. -/

namespace QuorumWarden

/-- Another round comes, or the rounds ended in good order. -/
def Round.Orderly {σ : Type} : Round σ → Prop
  | .again _ => True
  | .finished outcome => outcome = .ok ()
  | .brokenOff _ => False

namespace Procedure

variable {α β : Type} {last : α} {ends : α → Prop} {procedure : Procedure α}

/-- Every wait gives way to a stop, and when it does there is nothing left but `last`. Otherwise the procedure ends
in such a value. -/
def GivesWay (last : α) (ends : α → Prop) : Procedure α → Prop
  | .done value => ends value
  | .ask (.prompt _) next => ∀ reply, GivesWay last ends (next reply)
  | .ask (.await _) _ => False
  | .ask (.awaitOrStop _) next => next none = .done last ∧ ∀ reply, GivesWay last ends (next reply)

/-- The procedure comes to its next request only if no stop is requested by then. -/
def EndsAtStop (last : α) : Procedure α → Prop
  | .ask (.prompt .stopRequested) next => next true = .done last
  | .ask (.awaitOrStop _) next => next none = .done last
  | _ => False

/-- The procedure has not begun, or it waits. -/
structure Poised (last : α) (ends : α → Prop) (procedure : Procedure α) : Prop where
  givesWay : procedure.GivesWay last ends
  endsAtStop : procedure.EndsAtStop last

theorem GivesWay.bind {next : α → Procedure β} {final : β} {closes : β → Prop}
    (givesWay : procedure.GivesWay last ends) (stopped : next last = .done final)
    (onward : ∀ value, ends value → (next value).GivesWay final closes) : (procedure >>= next).GivesWay final closes := by
  induction procedure with
  | done value => exact onward value givesWay
  | ask request rest ih =>
    cases request with
    | prompt asked => exact fun reply => ih reply (givesWay reply)
    | await wait => exact givesWay.elim
    | awaitOrStop wait =>
      exact ⟨(congrArg (Program.bind · next) givesWay.1).trans stopped, fun reply => ih reply (givesWay.2 reply)⟩

theorem EndsAtStop.bind {next : α → Procedure β} {final : β} (ends : procedure.EndsAtStop last)
    (stopped : next last = .done final) : (procedure >>= next).EndsAtStop final := by
  cases procedure with
  | done value => exact ends.elim
  | ask request rest =>
    cases request with
    | prompt asked =>
      cases asked with
      | stopRequested => exact (congrArg (Program.bind · next) ends).trans stopped
      | _ => exact ends.elim
    | await wait => exact ends.elim
    | awaitOrStop wait => exact (congrArg (Program.bind · next) ends).trans stopped

theorem Poised.bind {next : α → Procedure β} {final : β} {closes : β → Prop} (poised : procedure.Poised last ends)
    (stopped : next last = .done final) (onward : ∀ value, ends value → (next value).GivesWay final closes) :
    (procedure >>= next).Poised final closes :=
  ⟨poised.givesWay.bind stopped onward, poised.endsAtStop.bind stopped⟩

theorem GivesWay.steps {σ : Type} {law : Law Request Request.Reply σ} {rest : Procedure α} {before after : σ}
    {trace : List (Program.Event Request.Reply)} (givesWay : procedure.GivesWay last ends)
    (steps : Program.Steps law procedure before trace rest after) : rest.GivesWay last ends := by
  induction steps with
  | refl => exact givesWay
  | @ask request next _ reply _ _ _ _ _ _ ih =>
    cases request with
    | prompt asked => exact ih (givesWay reply)
    | await wait => exact givesWay.elim
    | awaitOrStop wait => exact ih (givesWay.2 reply)

theorem givesWay_prompt {asked : Prompt} {next : asked.Reply → Procedure α}
    (onward : ∀ reply, (next reply).GivesWay last ends) : (prompt asked >>= next).GivesWay last ends := onward

/-- Anything gives way where it is made interruptible. -/
theorem givesWay_interruptible (procedure : Procedure α) : procedure.interruptible.GivesWay none fun _ => True := by
  induction procedure with
  | done value => trivial
  | ask request next ih =>
    cases request with
    | prompt asked => exact ih
    | await wait =>
      rw [interruptible]
      refine ⟨rfl, fun reply => ?_⟩
      cases reply with
      | none => trivial
      | some reply => exact ih reply
    | awaitOrStop wait =>
      rw [interruptible]
      refine ⟨rfl, fun reply => ?_⟩
      cases reply with
      | none => trivial
      | some reply => exact ih (some reply)

theorem poised_unlessStopped (procedure : Procedure α) : (unlessStopped procedure).Poised none fun _ => True := by
  refine ⟨fun stop => ?_, rfl⟩
  cases stop with
  | true => trivial
  | false => exact givesWay_interruptible procedure

end Procedure

open Procedure

theorem Action.poised_guarded {α : Type} (action : Action α) :
    (Action.guarded action).run.Poised (.error .cancelled) fun _ => True := by
  rw [Action.guarded_run]
  refine (poised_unlessStopped action.run).bind rfl fun ended _ => ?_
  cases ended <;> trivial

theorem Loop.round_poised {σ : Type} (interval : Nat) (tick : σ → Procedure (Outcome Unit × σ)) (state : Loop.State σ) :
    (Loop.round interval tick state).Poised (.finished (.ok ())) Round.Orderly := by
  refine (poised_unlessStopped _).bind rfl fun waited _ => ?_
  cases waited with
  | none => rfl
  | some due =>
    refine givesWay_prompt fun noticed => ?_
    refine (poised_unlessStopped _).givesWay.bind rfl fun ticked _ => ?_
    rcases ticked with _ | ⟨failure | done, kept⟩
    · rfl
    · change (if failure.isCancelled then _ else _ : Procedure _).GivesWay _ _
      split
      · rfl
      · exact fun _ => trivial
    · exact fun _ => trivial

theorem Procedure.alarm_bind {α : Type} (millis : Nat) (next : Nat → Procedure α) :
    alarm millis >>= next = prompt .timer >>= fun now => next (now + Timer.span millis) := rfl

theorem BackupSchedule.rest_givesWay (wait : Duration) (state : BackupSchedule.State) :
    (BackupSchedule.rest wait state).GivesWay none fun _ => True := by
  rw [BackupSchedule.rest, alarm_bind]
  refine givesWay_prompt fun now => ?_
  split
  next =>
    refine (poised_unlessStopped _).givesWay.bind rfl fun news _ => ?_
    cases news <;> trivial
  next =>
    refine (poised_unlessStopped _).givesWay.bind rfl fun slept _ => ?_
    cases slept <;> trivial

theorem BackupSchedule.round_poised (host : String) (policy : RetryPolicy) (state : BackupSchedule.State) :
    (BackupSchedule.round host policy state).Poised (.finished (.ok ())) Round.Orderly := by
  have evaluates : (Action.settled (Action.guarded (BackupSchedule.evaluate host policy))).run.Poised
      (.error .cancelled) fun _ => True := by
    refine (Action.poised_guarded _).bind rfl fun outcome _ => ?_
    rcases outcome with failure | wait
    · trivial
    · trivial
  refine evaluates.bind rfl fun evaluated _ => ?_
  rcases evaluated with failure | evaluated
  · rfl
  · refine (BackupSchedule.rest_givesWay _ state).bind rfl fun rested _ => ?_
    cases rested with
    | none => rfl
    | some state => trivial

theorem Duty.round_poised (orders : Orders) (duty : Duty) :
    (duty.round orders).Poised (.finished (.ok ())) Round.Orderly := by
  have mapped : ∀ {σ : Type} (wrap : σ → Duty) (ended : Round σ), ended.Orderly → (ended.map wrap).Orderly := by
    intro σ wrap ended orderly
    cases ended <;> exact orderly
  cases duty with
  | monitor kind state => exact (Loop.round_poised _ _ state).bind rfl (mapped _)
  | schedule retry state => exact (BackupSchedule.round_poised _ retry state).bind rfl (mapped _)

namespace Stage

variable {κ α : Type} [World κ] [MarkerStore (StateM κ)] {stage : Stage κ} {last : α} {ends : α → Prop}
  {procedure : Procedure α}

theorem poll_givesWay (givesWay : procedure.GivesWay last ends) :
    (∃ value, (stage.poll procedure).1 = .done value ∧ ends value) ∨ (stage.poll procedure).1.Poised last ends := by
  induction procedure generalizing stage with
  | done value => exact Or.inl ⟨value, rfl, givesWay⟩
  | ask request next ih =>
    cases request with
    | prompt asked => exact ih _ (givesWay _)
    | await wait => exact givesWay.elim
    | awaitOrStop wait =>
      rw [poll]
      split
      next reply stage _ => exact ih _ (givesWay.2 _)
      next rest back stage _ =>
        split
        next => exact ih _ (givesWay.2 _)
        next => exact Or.inr ⟨⟨givesWay.1, fun reply => givesWay.2 _⟩, givesWay.1⟩

theorem resume_poised (poised : procedure.Poised last ends) :
    (∃ value, (stage.resume procedure).1 = .done value ∧ ends value) ∨ (stage.resume procedure).1.Poised last ends := by
  unfold resume
  split
  next wait next =>
    split
    next => exact poll_givesWay (poised.givesWay.2 none)
    next => exact poll_givesWay poised.givesWay
  next => exact poll_givesWay poised.givesWay

/-- At a stop nothing is asked for any more. -/
theorem resume_stopped (stopped : stage.stopped = true) (ends : procedure.EndsAtStop last) :
    stage.resume procedure = (.done last, stage) := by
  cases procedure with
  | done value => exact ends.elim
  | ask request next =>
    cases request with
    | prompt asked =>
      cases asked with
      | stopRequested =>
        have ends : next true = .done last := ends
        have begun : stage.resume (.ask (.prompt .stopRequested) next) = stage.poll (next stage.stopped) := rfl
        rw [begun, stopped, ends]
        rfl
      | _ => exact ends.elim
    | await wait => exact ends.elim
    | awaitOrStop wait =>
      have ends : next none = .done last := ends
      rw [resume, if_pos stopped, ends]
      rfl

end Stage

theorem Procedure.EndsAtStop.isReady {κ α : Type} {last : α} {procedure : Procedure α} (ends : procedure.EndsAtStop last)
    {stage : Stage κ} (stopped : stage.stopped = true) : procedure.isReady stage = true := by
  cases procedure with
  | done value => exact ends.elim
  | ask request next =>
    cases request with
    | prompt asked => rfl
    | await wait => exact ends.elim
    | awaitOrStop wait => exact Bool.or_eq_true_iff.mpr (Or.inl stopped)

end QuorumWarden
