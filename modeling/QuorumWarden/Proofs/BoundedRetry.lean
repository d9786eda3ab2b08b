import QuorumWarden.Proofs.RetryPlan

/-! Attempts at a backup, with a stop at any time or none. They end as planned, and once a stop is requested no call
begins any more. -/

namespace QuorumWarden

open Procedure (awaiting)

namespace Backup

/-- What follows a call, with `further` attempts left after the one of that number. -/
def afterCall (delay : Duration) (wanted : BackupRequest) (further number : Nat) :
    Outcome String → Procedure (Outcome String)
  | .ok output => .done (.ok output)
  | .error failure =>
    if failure.isCancelled then .done (.error failure)
    else .ask (.prompt (.count .backupAttemptsFailed)) fun () =>
      match further with
      | 0 => .done (.error { cause := .retriesExhausted number failure.full })
      | further + 1 => (Action.pause delay.millis >>= fun () => attemptFrom delay wanted further (number + 1)).run

theorem attemptFrom_run (delay : Duration) (wanted : BackupRequest) (further number : Nat) :
    (attemptFrom delay wanted further number).run = .ask (.prompt .stopRequested) fun stop =>
      if stop then .done (.error .cancelled)
      else .ask (.prompt .stopRequested) fun stop =>
        if stop then .done (.error .cancelled)
        else .ask (.awaitOrStop (.call (.backup wanted))) fun
          | none => .done (.error .cancelled)
          | some outcome => afterCall delay wanted further number outcome := by
  rw [attemptFrom]
  refine congrArg (Program.ask _) (funext fun stop => ?_)
  cases stop with
  | true => rfl
  | false =>
    change (Action.settled (Action.guarded (request (.backup wanted)))).run >>= _ = _
    rw [Action.settled_call_run]
    refine congrArg (Program.ask _) (funext fun stop => ?_)
    cases stop with
    | true => rfl
    | false =>
      refine congrArg (Program.ask _) (funext fun reply => ?_)
      rcases reply with _ | failure | output
      · rfl
      · simp only [afterCall]
        split
        next cancelled => rfl
        next other =>
          refine congrArg (Program.ask _) (funext fun counted => ?_)
          cases further <;> rfl
      · rfl

theorem attemptFrom_endsAtStop (delay : Duration) (wanted : BackupRequest) (further number : Nat) :
    (attemptFrom delay wanted further number).run.EndsAtStop (.error .cancelled) := by
  rw [attemptFrom_run]
  rfl

theorem afterCall_givesWay {delay : Duration} {wanted : BackupRequest} {further number : Nat}
    (onward : ∀ fewer < further,
      (attemptFrom delay wanted fewer (number + 1)).run.GivesWay (.error .cancelled) fun _ => True)
    (outcome : Outcome String) :
    (afterCall delay wanted further number outcome).GivesWay (.error .cancelled) fun _ => True := by
  cases outcome with
  | ok output => trivial
  | error failure =>
    simp only [afterCall]
    split
    next => trivial
    next =>
      intro counted
      cases further with
      | zero => trivial
      | succ fewer =>
        refine (Action.poised_guarded _).givesWay.bind rfl fun paused _ => ?_
        cases paused with
        | error failure => trivial
        | ok done => exact onward fewer (Nat.lt_succ_self fewer)

theorem attemptFrom_poised (delay : Duration) (wanted : BackupRequest) (further number : Nat) :
    (attemptFrom delay wanted further number).run.Poised (.error .cancelled) fun _ => True := by
  refine ⟨?_, attemptFrom_endsAtStop delay wanted further number⟩
  -- An attempt asks for the same whether or not others follow it. Only after its call do the two cases part.
  induction further using Nat.strongRecOn generalizing number with
  | _ further ih =>
    rw [attemptFrom_run]
    intro stop
    cases stop with
    | true => trivial
    | false =>
      intro stop
      cases stop with
      | true => trivial
      | false =>
        refine ⟨rfl, fun reply => ?_⟩
        cases reply with
        | none => trivial
        | some outcome => exact afterCall_givesWay (fun fewer before => ih fewer before (number + 1)) outcome

end Backup

theorem Script.call_takes {stage : Stage Script} {millis : Nat} {outcome : Outcome String}
    (line : stage.world.lines.head?.getD (.takes 0 (.ok "")) = .takes millis outcome) (wanted : BackupRequest) :
    World.call (.backup wanted) stage = (.later (stage.now + Timer.span millis) outcome,
      { stage with world := ⟨stage.world.lines.tail, (stage.now, .backup wanted) :: stage.world.calls⟩ }) := by
  simp only [World.call, line]
  rfl

namespace Backup.Plan

variable {plan : Plan} {stopAt : Option Nat} {index further waits : Nat} {stage : Stage Script} {failure : Failure}

/-- Before the call of that index, all those before it having failed. -/
structure Ready (plan : Plan) (index : Nat) (stage : Stage Script) : Prop where
  now : stage.now = plan.begins index
  running : stage.stopped = false
  lines : stage.world.lines = (plan.trials.drop index).map Trial.line
  made : plan.Made index index stage

/-- The stage once the call is made. -/
def called (plan : Plan) (index : Nat) (stage : Stage Script) : Stage Script :=
  { stage with world := ⟨stage.world.lines.tail, plan.call index :: stage.world.calls⟩ }

/-- The timer has come to the end of the call. -/
def heard (plan : Plan) (index : Nat) (stage : Stage Script) : Stage Script :=
  (plan.called index stage).moveTo (plan.ends index)

/-- The stage once the failure of the call is counted. -/
def counted (plan : Plan) (index : Nat) (stage : Stage Script) : Stage Script :=
  { plan.heard index stage with metrics := stage.metrics.bump .backupAttemptsFailed }

theorem Ready.call (ready : plan.Ready index stage) : World.call (.backup plan.wanted) stage =
    (.later (plan.ends index) (plan.trial index).outcome, plan.called index stage) := by
  have line : stage.world.lines.head?.getD (.takes 0 (.ok "")) =
      .takes (plan.trial index).millis (plan.trial index).outcome := by
    rw [ready.lines, List.head?_map, List.head?_drop, trial]
    cases plan.trials[index]? <;> rfl
  rw [Script.call_takes line, ready.now]
  simp only [called, Plan.call, ends, ready.now]

theorem Ready.made_called (ready : plan.Ready index stage) : plan.Made (index + 1) index (plan.called index stage) := by
  refine ⟨?_, ready.made.counted⟩
  change (plan.call index :: stage.world.calls).reverse = _
  rw [List.reverse_cons, ready.made.calls, List.range_succ, List.map_append]
  rfl

theorem Ready.made_counted (ready : plan.Ready index stage) :
    plan.Made (index + 1) (index + 1) (plan.counted index stage) := by
  refine ⟨ready.made_called.calls, ?_⟩
  change (stage.metrics.bump _).get _ = _
  rw [Metrics.get_bump, if_pos rfl, ready.made.counted]

theorem Ready.now_heard (ready : plan.Ready index stage) : (plan.heard index stage).now = plan.ends index := by
  change max stage.now (plan.ends index) = _
  rw [ready.now, Nat.max_eq_right (plan.begins_le_ends index)]

theorem Ready.next (ready : plan.Ready index stage) :
    plan.Ready (index + 1) ((plan.counted index stage).moveTo (plan.begins (index + 1))) where
  now := by
    change max (plan.heard index stage).now _ = _
    rw [ready.now_heard, Nat.max_eq_right (plan.ends_le_begins (Nat.lt_succ_self index))]
  running := ready.running
  lines := by
    change stage.world.lines.tail = _
    rw [ready.lines, ← List.map_tail, List.tail_drop]
  made := ready.made_counted.congr rfl rfl

/-- The next attempt makes the next call and waits for what comes of it. -/
theorem Ready.resume_attempt (ready : plan.Ready index stage) (further : Nat) :
    stage.resume (attemptFrom plan.policy.delay plan.wanted further (index + 1)).run =
      (plan.called index stage).resume (awaiting (plan.ends index) (.error .cancelled)
        (afterCall plan.policy.delay plan.wanted further (index + 1) (plan.trial index).outcome)) := by
  have running := ready.running
  have still : (plan.called index stage).stopped = false := running
  rw [Stage.resume_of_running running, Stage.resume_of_running still, Stage.poll_awaiting still, attemptFrom_run]
  simp only [Stage.poll, Stage.answer, running, Bool.false_eq_true, if_false, Stage.attempt, ready.call]
  by_cases due : plan.ends index ≤ (plan.called index stage).now
  · rw [if_pos due, if_pos due]
  · rw [if_neg due, if_neg due]
    simp only [still, Bool.false_eq_true, if_false]
    refine congrArg (·, plan.called index stage) (congrArg (Program.ask _) (funext fun reply => ?_))
    cases reply <;> rfl

theorem resume_failed (other : failure.isCancelled = false) (number : Nat) :
    (plan.heard index stage).resume (afterCall plan.policy.delay plan.wanted 0 number (.error failure)) =
      (.done (.error { cause := .retriesExhausted number failure.full }), plan.counted index stage) := by
  simp only [afterCall, other]
  rfl

theorem Ready.resume_retried (ready : plan.Ready index stage) (other : failure.isCancelled = false) (number : Nat) :
    (plan.heard index stage).resume (afterCall plan.policy.delay plan.wanted (further + 1) number (.error failure)) =
      (plan.counted index stage).resume (awaiting (plan.begins (index + 1)) (.error .cancelled)
        (attemptFrom plan.policy.delay plan.wanted further (number + 1)).run) := by
  have running : (plan.heard index stage).stopped = false := ready.running
  have still : (plan.counted index stage).stopped = false := ready.running
  have counts : (plan.heard index stage).answer (.count .backupAttemptsFailed) = ((), plan.counted index stage) := rfl
  have timer : (plan.counted index stage).answer .timer = (plan.ends index, plan.counted index stage) := by
    rw [Stage.answer]
    exact congrArg (·, plan.counted index stage) ready.now_heard
  have unstopped : (plan.counted index stage).answer .stopRequested = (false, plan.counted index stage) := by
    rw [Stage.answer, still]
  rw [Stage.resume_of_running running, Stage.resume_of_running still]
  simp only [afterCall, other, Bool.false_eq_true, if_false, Action.pause_bind_run, Stage.poll, counts, unstopped,
    timer]
  rfl

/-- The call fails in time, or it is the last thing that happens. -/
theorem Ready.through_call (ready : plan.Ready index stage) (early : index ≤ plan.failing) (within : index < plan.limit)
    (begun : Stage.inTime stopAt (plan.begins index) = true) (enough : 2 ≤ waits) :
    let run := stage.runWaits stopAt waits (attemptFrom plan.policy.delay plan.wanted further (index + 1)).run
    plan.Concluded stopAt run ∨ ∃ failure left, (plan.trial index).outcome = .error failure ∧
      Stage.inTime stopAt (plan.ends index) = true ∧ waits ≤ left + 1 ∧
      run = (plan.heard index stage).runWaits stopAt left
        (afterCall plan.policy.delay plan.wanted further (index + 1) (.error failure)) := by
  intro run
  have running : (plan.called index stage).stopped = false := ready.running
  have called : run = (plan.called index stage).runWaits stopAt waits (awaiting (plan.ends index) _ _) :=
    Stage.runWaits_congr (ready.resume_attempt further) (Nat.lt_of_succ_lt enough)
  cases ended : Stage.inTime stopAt (plan.ends index) with
  | false =>
    have standing : Stage.inTime stopAt (plan.called index stage).now = true := ready.now ▸ begun
    obtain ⟨stop, cut⟩ := Stage.runWaits_cut running standing enough ended
    rw [called, cut]
    exact Or.inl (Made.concluded_in_call (ready.made_called.congr rfl rfl) early within begun ended)
  | true =>
    obtain ⟨left, fewer, arrived⟩ := Stage.runWaits_awaiting running enough ended
    cases outcome : (plan.trial index).outcome with
    | ok output =>
      have made : plan.Made (index + 1) index (plan.heard index stage) := ready.made_called.congr rfl rfl
      rw [called, arrived, outcome, Stage.runWaits_of_resume rfl (by omega)]
      exact Or.inl (made.concluded_success early within ended outcome)
    | error failure => exact Or.inr ⟨failure, left, rfl, rfl, fewer, outcome ▸ called.trans arrived⟩

/-- From the call of one index on, all goes as planned. -/
theorem concluded_from (genuine : plan.Genuine) (further : Nat) (within : index + further + 1 = plan.limit)
    (early : index ≤ plan.failing) (ready : plan.Ready index stage)
    (begun : Stage.inTime stopAt (plan.begins index) = true) (enough : 2 * (plan.trials.length - index) + 2 ≤ waits) :
    plan.Concluded stopAt
      (stage.runWaits stopAt waits (attemptFrom plan.policy.delay plan.wanted further (index + 1)).run) := by
  -- An attempt that fails takes two waits at most, and no more of them fail than there are trials.
  have plenty : 2 ≤ waits := by omega
  induction further generalizing index waits stage with
  | zero =>
    rcases ready.through_call early (by omega) begun plenty with stopped | ⟨failure, left, failed, ended, _, arrived⟩
    · exact stopped
    · rw [arrived, Stage.runWaits_of_resume (resume_failed (genuine.trial failed) _) (by omega)]
      exact ready.made_counted.concluded_exhausted early within ended failed
  | succ further ih =>
    rcases ready.through_call early (by omega) begun plenty with stopped | ⟨failure, left, failed, ended, _, arrived⟩
    · exact stopped
    · have before := lt_failing_of_error early failed
      have listed : plan.failing ≤ plan.trials.length := List.findIdx_le_length
      have leftover : 2 ≤ left := by omega
      have running : (plan.counted index stage).stopped = false := ready.running
      rw [arrived, Stage.runWaits_congr (ready.resume_retried (genuine.trial failed) _) (by omega)]
      cases next : Stage.inTime stopAt (plan.begins (index + 1)) with
      | false =>
        have standing : Stage.inTime stopAt (plan.counted index stage).now = true := ready.now_heard ▸ ended
        obtain ⟨stop, cut⟩ := Stage.runWaits_cut running standing leftover next
        rw [cut]
        exact Made.concluded_in_delay (ready.made_counted.congr rfl rfl) before (by omega) ended next
      | true =>
        obtain ⟨rest, fewest, rested⟩ := Stage.runWaits_awaiting running leftover next
        rw [rested]
        exact ih (by omega) before ready.next next (by omega) (by omega)

theorem ready_start (plan : Plan) : plan.Ready 0 (Drill.stage (plan.trials.map Trial.line)) where
  now := rfl
  running := rfl
  lines := rfl
  made := ⟨rfl, rfl⟩

theorem concluded (plan : Plan) (genuine : plan.Genuine) (stopAt : Option Nat) :
    plan.Concluded stopAt (Drill.attempts plan.policy plan.wanted (plan.trials.map Trial.line) stopAt) := by
  by_cases atStart : stopAt = some 0
  · have stopped : (Drill.stage (plan.trials.map Trial.line)).requestStop.stopped = true := rfl
    have ended := Stage.resume_stopped stopped
      (attemptFrom_endsAtStop plan.policy.delay plan.wanted (plan.policy.maxAttempts - 1) 1)
    rw [atStart, Drill.attempts, Stage.run, if_pos (by rfl), attempts, Stage.runWaits_of_resume ended (by omega)]
    exact Made.concluded_before ⟨rfl, rfl⟩
  · have begun : Stage.inTime stopAt (plan.begins 0) = true ∧ stopAt.any (· ≤ 0) = false := by
      rcases stopAt with _ | _ | _
      · exact ⟨rfl, rfl⟩
      · exact absurd rfl atStart
      · exact ⟨rfl, rfl⟩
    have still : ¬ stopAt.any (· ≤ (Drill.stage (plan.trials.map Trial.line)).now) = true :=
      begun.2 ▸ Bool.false_ne_true
    have limited : 0 + (plan.policy.maxAttempts - 1) + 1 = plan.limit := by
      rw [limit]
      omega
    rw [Drill.attempts, Stage.run, if_neg still]
    exact concluded_from genuine _ limited (Nat.zero_le _) plan.ready_start begun.1 (by rw [List.length_map]; omega)

end Backup.Plan

namespace Backup

/-- Whenever the stop comes, the attempts end as planned. No number of attempts is too large to be counted. In the turn
after a stop the attempts are over, and nothing is done in it. -/
theorem attempts_bounded (plan : Plan) (genuine : plan.Genuine) :
    (∀ stopAt, plan.Concluded stopAt (Drill.attempts plan.policy plan.wanted (plan.trials.map Trial.line) stopAt)) ∧
    (plan.policy.maxAttempts < UInt32.size → plan.calls < UInt32.size) ∧
    ∀ {κ : Type} [World κ] [MarkerStore (StateM κ)] (start stage : Stage κ) rest,
      start.Unfolds (attempts plan.policy plan.wanted).run stage rest → stage.stopped = true →
        (∃ outcome, rest = .done outcome) ∨ stage.resume rest = (.done (.error .cancelled), stage) := by
  refine ⟨plan.concluded genuine, fun limited => ?_, @fun κ _ _ start stage rest unfolds stopped => ?_⟩
  · have wide : 1 < UInt32.size := by decide
    rw [Plan.calls, Plan.limit]
    omega
  · exact unfolds.resume_stopped (attemptFrom_poised _ _ _ _) stopped

/-- A call that fails at once, and a second one that would succeed. -/
def recovering (delay : Duration) : Plan :=
  ⟨{ maxAttempts := 2, delay }, {}, [⟨0, .error (.message "no space")⟩]⟩

theorem genuine_recovering (delay : Duration) : (recovering delay).Genuine := by
  intro trial member failure failed
  obtain rfl := List.mem_singleton.mp member
  cases failed
  rfl

theorem retry_never_made :
    let plan := recovering (.ofMillis 10)
    let lines := plan.trials.map Trial.line
    let drill := Drill.attempts plan.policy plan.wanted lines (some 7)
    let stage := (Drill.stage lines).requestStop
    plan.Genuine ∧ drill.1 = some (.error .cancelled) ∧ drill.2.world.calls.reverse = [(0, .backup {})] ∧
      drill.2.metrics.get .backupAttemptsFailed = 1 ∧ plan.policy.maxAttempts < UInt32.size ∧ plan.calls < UInt32.size ∧
      stage.resume (attempts plan.policy plan.wanted).run = (.done (.error .cancelled), stage) := by
  intro plan lines drill stage
  have genuine : plan.Genuine := genuine_recovering (.ofMillis 10)
  obtain ⟨concluded, countable, finished⟩ := attempts_bounded plan genuine
  have cut := concluded (some 7)
  have stopped := finished (Drill.stage lines) stage _ (.stopped .begun) rfl
  refine ⟨genuine, ?_, ?_, ?_, by decide, countable (by decide), ?_⟩
  · exact cut.result.trans (congrArg some (if_neg (by decide)))
  · exact cut.calls.trans (by decide)
  · exact cut.counted.trans (by decide)
  · refine stopped.resolve_left fun ⟨outcome, ended⟩ => ?_
    rw [attempts, attemptFrom_run] at ended
    cases ended

/-- The timer is set for no more than thirty years, so a second attempt does not wait for the end of a longer delay. -/
theorem retry_before_end_of_delay :
    let delay := Duration.ofMillis 2000000000000
    let plan := recovering delay
    let drill := Drill.attempts plan.policy plan.wanted (plan.trials.map Trial.line) none
    drill.2.world.calls.reverse.map Prod.fst = [0, 946080000000] ∧ 946080000000 ≠ 0 + delay.millis := by
  have concluded := Plan.concluded _ (genuine_recovering (.ofMillis 2000000000000)) none
  exact ⟨(congrArg (List.map Prod.fst) concluded.calls).trans (by decide), by decide⟩

end Backup

end QuorumWarden
