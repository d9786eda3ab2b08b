import QuorumWarden.Proofs.BoundedRetry
import QuorumWarden.Proofs.Bulletins
import QuorumWarden.Proofs.GroupJoins
import QuorumWarden.Proofs.ScheduleEvaluation

/-! Rounds of the backup schedule: an evaluation, and then a wait that its own end or news of the frequency brings to
an end. The schedule has never seen more than was sent, and it watches as long as there may be news. -/

namespace QuorumWarden

open Procedure (Asks)

/-- What attempts at a backup ask for. -/
def Backup.Attempting (wanted : BackupRequest) : Request → Prop
  | .prompt .stopRequested | .prompt .timer | .prompt (.count .backupAttemptsFailed) => True
  | .awaitOrStop (.sleepUntil _) => True
  | .awaitOrStop (.call made) => made = .backup wanted
  | _ => False

/-- What an evaluation of the schedule asks for: no news, and nothing that need not give way to a stop. -/
def BackupSchedule.Evaluating : Request → Prop
  | .prompt _ | .awaitOrStop (.call _) | .awaitOrStop (.sleepUntil _) => True
  | _ => False

theorem Backup.evaluating_of_attempting {wanted : BackupRequest} {request : Request}
    (attempting : Attempting wanted request) : BackupSchedule.Evaluating request := by
  unfold Attempting at attempting
  split at attempting <;> trivial

theorem Backup.attemptFrom_asks (delay : Duration) (wanted : BackupRequest) (further number : Nat) :
    Asks (Attempting wanted) (attemptFrom delay wanted further number).run := by
  induction further using Nat.strongRecOn generalizing number with
  | _ further ih =>
    rw [attemptFrom_run]
    refine .unlessCancelled trivial (.unlessCancelled trivial (.ask rfl fun reply => ?_))
    rcases reply with _ | failure | output
    · exact .done
    · simp only [afterCall]
      split
      · exact .done
      refine .ask trivial fun _ => ?_
      cases further with
      | zero => exact .done
      | succ fewer =>
        simp only [Action.pause_bind_run]
        refine .unlessCancelled trivial (.ask trivial fun now => .ask trivial fun slept => ?_)
        cases slept with
        | none => exact .done
        | some _ => exact ih fewer (Nat.lt_succ_self fewer) _
    · exact .done

namespace BackupSchedule

variable {host : String} {policy : RetryPolicy} {state : State}

/-- An evaluation within a round. Only a stop ends the round with it. -/
def evaluation (host : String) (policy : RetryPolicy) : Procedure (Outcome (Outcome Duration)) :=
  (Action.settled (Action.guarded (evaluate host policy))).run

/-- The wait after an evaluation that did not end the round. -/
def waitAfter : Outcome Duration → Duration
  | .ok wait => wait
  | .error _ => recheck

/-- What is left of a round once the wait has ended. -/
def rested : Option State → Procedure (Round State)
  | some state => .done (.again state)
  | none => .done (.finished (.ok ()))

/-- What is left of a round once the evaluation has ended. -/
def evaluated (state : State) : Outcome (Outcome Duration) → Procedure (Round State)
  | .error _ => .done (.finished (.ok ()))
  | .ok evaluated => rest (waitAfter evaluated) state >>= rested

theorem evaluation_run (host : String) (policy : RetryPolicy) : evaluation host policy =
    .ask (.prompt .stopRequested) fun stop => if stop then .done (.error .cancelled)
      else (evaluate host policy).run.interruptible >>= Action.settling := by
  rw [evaluation, Action.settled_guarded_run]

theorem steps_evaluation {left : Procedure (Outcome Duration)} {trace : List (Program.Event Request.Reply)}
    (steps : Program.Steps Law.free (evaluate host policy).run () trace left ())
    (unstopped : ∀ event ∈ trace, event.yielding = event ∧ ¬event.stops) :
    Program.Steps Law.free (evaluation host policy) () (⟨.prompt .stopRequested, false⟩ :: trace)
      (left.interruptible >>= Action.settling) () := by
  rw [evaluation_run]
  exact .ask trivial ((Procedure.steps_interruptible steps unstopped).bind_left _)

theorem round_eq (host : String) (policy : RetryPolicy) (state : State) :
    round host policy state = evaluation host policy >>= evaluated state := by
  refine congrArg (evaluation host policy >>= ·) (funext fun outcome => ?_)
  rcases outcome with failure | ended
  · rfl
  · refine congrArg (rest (waitAfter ended) state >>= ·) (funext fun next => ?_)
    cases next <;> rfl

/-- What the schedule knows once its wait was ended by news. -/
def State.heard (state : State) : FrequencyNews → State
  | .changed version => { state with seen := version }
  | .closed => { state with live := false }
  | .elapsed => state

theorem rest_run (wait : Duration) (state : State) : rest wait state =
    .ask (.prompt .timer) fun now => .ask (.prompt .stopRequested) fun stop =>
      if stop then .done none
      else if state.live then
        .ask (.awaitOrStop (.frequencyNews state.seen (now + Timer.span wait.millis))) fun news =>
          .done (news.map state.heard)
      else .ask (.awaitOrStop (.sleepUntil (now + Timer.span wait.millis))) fun slept =>
        .done (slept.map fun () => state) := by
  refine congrArg (Program.ask _) (funext fun now => ?_)
  change (if state.live then _ else _ : Procedure _) = _
  rw [Group.unlessStopped_await, Group.unlessStopped_await]
  split
  next live =>
    refine congrArg (Program.ask _) (funext fun stop => ?_)
    cases stop with
    | true => rfl
    | false => exact congrArg (Program.ask _) (funext fun news => by rcases news with _ | _ | _ | _ <;> rfl)
  next gone =>
    refine congrArg (Program.ask _) (funext fun stop => ?_)
    cases stop <;> rfl

theorem evaluate_asks (host : String) (policy : RetryPolicy) : Asks Evaluating (evaluate host policy).run := by
  rw [evaluate_run]
  refine .unlessCancelled trivial (.ask trivial (.heard fun _ => .ask trivial (.heard fun members => ?_)))
  split
  · refine .ask trivial fun frequency =>
      .unlessCancelled trivial (.ask trivial (.heard fun backups => .ask trivial fun now => ?_))
    simp only [concluded]
    split
    · exact .done
    refine .bind (.settled ?_) fun outcome => ?_
    · exact (Backup.attemptFrom_asks _ _ _ _).imp fun request => Backup.evaluating_of_attempting
    · rcases outcome with failure | failure | output
      · exact .done
      · exact .ask trivial fun _ => .done
      · exact .ask trivial fun _ => .done
  · exact .done

theorem evaluation_asks (host : String) (policy : RetryPolicy) : Asks Evaluating (evaluation host policy) :=
  .settled ((evaluate_asks host policy).guarded trivial fun _ => False.elim)

/-- The wait of a round, for news if there may be any. -/
def resting (state : State) (deadline : Nat) : Procedure (Round State) :=
  if state.live then .ask (.awaitOrStop (.frequencyNews state.seen deadline)) fun news => rested (news.map state.heard)
  else .ask (.awaitOrStop (.sleepUntil deadline)) fun slept => rested (slept.map fun () => state)

theorem evaluated_run (state : State) (ended : Outcome Duration) : evaluated state (.ok ended) =
    .ask (.prompt .timer) fun now => .ask (.prompt .stopRequested) fun stop =>
      if stop then .done (.finished (.ok ())) else resting state (now + Timer.span (waitAfter ended).millis) := by
  rw [evaluated, rest_run]
  refine congrArg (Program.ask _) (funext fun now => congrArg (Program.ask _) (funext fun stop => ?_))
  cases stop with
  | true => rfl
  | false =>
    rw [resting]
    split <;> rfl

section

variable {σ : Type} {law : Law Request Request.Reply σ} {before after : σ} {trace : List (Program.Event Request.Reply)}
  {left : Procedure (Round State)} {wait : Wait}

theorem resting_waits {deadline : Nat} (steps : Program.Steps law (resting state deadline) before trace left after)
    (waits : left.pending = some (.awaitOrStop wait)) : left = resting state deadline := by
  cases trace with
  | nil => exact steps.of_nil.1
  | cons event trace =>
    rw [resting] at steps
    split at steps <;>
      cases steps with
      | @ask _ _ _ reply _ _ _ _ _ more => cases reply <;> cases more <;> cases waits

theorem evaluated_waits {outcome : Outcome (Outcome Duration)}
    (steps : Program.Steps law (evaluated state outcome) before trace left after)
    (waits : left.pending = some (.awaitOrStop wait)) : ∃ deadline, left = resting state deadline := by
  cases outcome with
  | error failure =>
    cases steps
    cases waits
  | ok ended =>
    rw [evaluated_run] at steps
    cases steps with
    | refl => cases waits
    | @ask _ _ _ now _ _ _ _ _ more =>
      cases more with
      | refl => cases waits
      | @ask _ _ _ stop _ _ _ _ _ more =>
        cases stop with
        | true =>
          cases more
          cases waits
        | false => exact ⟨_, resting_waits more waits⟩

/-- A round waits for news after its evaluation and nowhere else. -/
theorem round_waiting {seen deadline : Nat} {next : Option FrequencyNews → Procedure (Round State)}
    (steps : Program.Steps law (round host policy state) before trace
      (.ask (.awaitOrStop (.frequencyNews seen deadline)) next) after) :
    state.live = true ∧ seen = state.seen ∧ next = fun news => rested (news.map state.heard) := by
  rw [round_eq] at steps
  have waits : ∀ {outcome between trace}, Program.Steps law (evaluated state outcome) between trace
      (.ask (.awaitOrStop (.frequencyNews seen deadline)) next) after →
        state.live = true ∧ seen = state.seen ∧ next = fun news => rested (news.map state.heard) := by
    intro outcome between trace steps
    obtain ⟨deadline, same⟩ := evaluated_waits steps rfl
    rw [resting] at same
    split at same
    next live =>
      cases same
      exact ⟨live, rfl, rfl⟩
    next gone => cases same
  rcases Program.Steps.of_bind steps with ⟨middle, same, inside⟩ | ⟨outcome, between, first, second, _, _, onward⟩
  · cases middle with
    | done outcome =>
      have waiting : Program.Steps law (evaluated state outcome) after [] (.done outcome >>= evaluated state) after :=
        .refl
      exact waits (same ▸ waiting)
    | ask request remaining =>
      have asked := ((evaluation_asks host policy).steps inside.freed).pending request rfl
      cases same
      exact asked.elim
  · exact waits onward

end

theorem round_again {σ : Type} {law : Law Request Request.Reply σ} {before after : σ}
    {trace : List (Program.Event Request.Reply)} {next : State}
    (ran : Program.Runs law (round host policy state) before trace (.again next) after) :
    ∃ outcome ended first second, trace = first ++ second ∧
      Program.Runs law (evaluation host policy) before first (.ok outcome) ended ∧
      Program.Runs law (rest (waitAfter outcome) state) ended second (some next) after := by
  rw [round_eq] at ran
  obtain ⟨outcome, ended, first, second, rfl, evaluates, onward⟩ := Program.Runs.of_bind ran
  rcases outcome with failure | outcome
  · cases onward
  · obtain ⟨slept, _, silence, none, rfl, rests, last⟩ := Program.Runs.of_bind onward
    rcases slept with _ | slept
    · cases last
    · cases last
      exact ⟨outcome, ended, first, silence, by rw [List.append_nil], evaluates, rests⟩

/-- The wait began at such a time and ended by its end or by news. -/
def Woken (wait : Duration) (state next : State) (time : Nat) (after : Bulletin) : Prop :=
  if state.live then
    ∃ news, after.Ends (.frequencyNews state.seen (time + Timer.span wait.millis)) news ∧ next = state.heard news
  else time + Timer.span wait.millis ≤ after.now ∧ next = state

theorem rest_woken {wait : Duration} {next : State} {before after : Bulletin}
    {trace : List (Program.Event Request.Reply)}
    (ran : Program.Runs Bulletin.law (rest wait state) before trace (some next) after) :
    ∃ time, before.now ≤ time ∧ before.Later after ∧ Woken wait state next time after := by
  have later := Bulletin.steps_later ran
  rw [rest_run] at ran
  cases ran with
  | @ask _ _ _ now _ _ _ _ answered more =>
    cases more with
    | @ask _ _ _ stop _ _ _ _ looked more =>
      cases stop with
      | true => cases more
      | false =>
        obtain ⟨sent, changes⟩ := answered.1
        have shown : now = _ := answered.2
        refine ⟨now, shown ▸ changes.now_le, later, ?_⟩
        simp only [Bool.false_eq_true, if_false] at more
        rw [Woken]
        split at more
        next live =>
          rw [if_pos live]
          cases more with
          | @ask _ _ _ news _ _ _ _ woke more =>
            rcases news with _ | news
            · cases more
            · cases more
              exact ⟨news, woke.2, rfl⟩
        next gone =>
          rw [if_neg gone]
          cases more with
          | @ask _ _ _ slept _ _ _ _ woke more =>
            rcases slept with _ | slept
            · cases more
            · cases more
              exact ⟨woke.2, rfl⟩

/-- The schedule has seen nothing that has not been sent, and watches as long as anything may come. -/
structure State.Abreast (state : State) (bulletin : Bulletin) : Prop where
  seen : state.seen ≤ bulletin.frequency.version
  watches : bulletin.frequency.live = true → state.live = true

theorem abreast_start (bulletin : Bulletin) : State.Abreast {} bulletin := ⟨Nat.zero_le _, fun _ => rfl⟩

theorem State.Abreast.later {before after : Bulletin} (abreast : state.Abreast before) (later : before.Later after) :
    state.Abreast after := by
  obtain ⟨sent, changes⟩ := later
  refine ⟨?_, fun live => abreast.watches (changes.live live)⟩
  rw [changes.version]
  exact Nat.le_trans abreast.seen (Nat.le_add_right _ _)

theorem State.Abreast.heard {bulletin : Bulletin} (abreast : state.Abreast bulletin) {deadline : Nat}
    {news : FrequencyNews} (ends : bulletin.Ends (.frequencyNews state.seen deadline) news) :
    (state.heard news).Abreast bulletin := by
  simp only [Bulletin.Ends, Frequency.news?] at ends
  split at ends
  next unseen =>
    cases ends
    exact ⟨Nat.le_refl _, abreast.watches⟩
  next same =>
    split at ends
    next live =>
      obtain ⟨rfl, _⟩ := ends
      exact abreast
    next gone =>
      cases ends
      exact ⟨abreast.seen, fun live => absurd live gone⟩

theorem State.Abreast.woken {bulletin : Bulletin} (abreast : state.Abreast bulletin) {wait : Duration} {next : State}
    {time : Nat} (woken : Woken wait state next time bulletin) : next.Abreast bulletin := by
  rw [Woken] at woken
  split at woken
  next =>
    obtain ⟨news, ends, rfl⟩ := woken
    exact abreast.heard ends
  next =>
    obtain ⟨_, rfl⟩ := woken
    exact abreast

theorem abreast_of_laps {start begun : Bulletin} {first : State} (abreast : first.Abreast start)
    (laps : Laps Bulletin.law (round host policy) first start state begun) : state.Abreast begun := by
  obtain ⟨rounds, laps⟩ := laps
  induction laps with
  | start => exact abreast
  | again _ ran ih =>
    obtain ⟨outcome, ended, _, _, _, evaluates, rests⟩ := round_again ran
    obtain ⟨time, _, later, woken⟩ := rest_woken rests
    exact (((ih abreast).later (Bulletin.steps_later evaluates)).later later).woken woken

end BackupSchedule

end QuorumWarden
