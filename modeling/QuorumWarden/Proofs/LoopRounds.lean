import QuorumWarden.Proofs.GroupJoins
import QuorumWarden.Proofs.PausedClock

/-! One round of a loop on a paused clock. It waits for its tick, which is completed and counted or dropped at a stop;
a stop before the tick begins is the end of the loop. -/

namespace QuorumWarden

open Procedure (Asks)

namespace Loop

variable {σ κ : Type} {interval : Nat} {tick : σ → Procedure (Outcome Unit × σ)} {state : State σ}

/-- What is left of a round once its tick was completed. -/
def counted (next : State σ) : Outcome Unit → Procedure (Round (State σ))
  | .ok () => .ask (.prompt (.count .ticksOk)) fun () => .done (.again next)
  | .error failure =>
    if failure.isCancelled then .done (.finished (.ok ()))
    else .ask (.prompt (.count .ticksFailed)) fun () => .done (.again next)

/-- What is left of a round once its tick was completed or dropped. -/
def ticked (interval deadline noticed : Nat) : Option (Outcome Unit × σ) → Procedure (Round (State σ))
  | none => .done (.finished (.ok ()))
  | some (outcome, kept) => .ask (.prompt (.notice .tickEnded)) fun () =>
    counted ⟨nextDeadline interval deadline noticed, kept⟩ outcome

theorem round_run (interval : Nat) (tick : σ → Procedure (Outcome Unit × σ)) (state : State σ) :
    round interval tick state = .ask (.prompt .stopRequested) fun stop =>
      if stop then .done (.finished (.ok ()))
      else .ask (.awaitOrStop (.sleepUntil state.deadline)) fun
        | none => .done (.finished (.ok ()))
        | some () => .ask (.prompt .timer) fun noticed => .ask (.prompt .stopRequested) fun stop =>
          if stop then .done (.finished (.ok ()))
          else .ask (.prompt (.notice .tickBegun)) fun () =>
            (tick state.kept).interruptible >>= ticked interval state.deadline noticed := by
  unfold round
  rw [Group.unlessStopped_await]
  refine congrArg (Program.ask _) (funext fun stop => ?_)
  cases stop with
  | true => rfl
  | false =>
    refine congrArg (Program.ask _) (funext fun due => ?_)
    rcases due with _ | ⟨⟩
    · rfl
    refine congrArg (Program.ask _) (funext fun noticed => congrArg (Program.ask _) (funext fun stop => ?_))
    cases stop with
    | true => rfl
    | false =>
      refine congrArg (Program.ask _) (funext fun () => ?_)
      change Procedure.interruptible (tick state.kept >>= _) >>= _ = _
      rw [Procedure.interruptible_bind, bind_assoc]
      refine congrArg ((tick state.kept).interruptible >>= ·) (funext fun ended => ?_)
      rcases ended with _ | ⟨outcome, kept⟩
      · rfl
      refine congrArg (Program.ask _) (funext fun () => ?_)
      rcases outcome with failure | ⟨⟩
      · change (if failure.isCancelled then _ else _ : Procedure _) = counted _ _
        rw [counted]
        split <;> rfl
      · rfl

variable [MarkerStore (StateM κ)] {stopAt : Nat} {before entered after : Stage κ}

/-- A tick that is due is waited for, and has ended. -/
structure Ticks (stopAt deadline : Nat) (before : Stage κ) (tick : Tick) (after : Stage κ) : Prop where
  begins : tick.begins = max deadline before.now
  onward : tick.begins ≤ tick.ends
  ends : tick.ends = after.now
  inTime : before.now ≤ stopAt → after.now ≤ stopAt
  records : before.Records [tick] after
  dropped : tick.outcome = none → after.stopped = true

open Stage (Continues Records)

theorem noticed_begun (continues : Continues stopAt (entered.answer (.notice .tickBegun)).2 after) :
    after.tickNotices = entered.tickNotices ++ [(entered.now, .tickBegun)] := by
  rw [continues.records.noticed, Stage.tickNotices_notice _ rfl]
  exact List.append_nil _

theorem records_dropped (continues : Continues stopAt (entered.answer (.notice .tickBegun)).2 after) :
    Records entered [⟨entered.now, after.now, none⟩] after :=
  ⟨noticed_begun continues, continues.records.ok, continues.records.failed⟩

/-- The stage once a tick was completed. -/
def completed (stage : Stage κ) (outcome : Outcome Unit) : Stage κ :=
  let ended := (stage.answer (.notice .tickEnded)).2
  match outcome with
  | .ok () => (ended.answer (.count .ticksOk)).2
  | .error failure => if failure.isCancelled then ended else (ended.answer (.count .ticksFailed)).2

theorem completed_now (stage : Stage κ) (outcome : Outcome Unit) : (completed stage outcome).now = stage.now := by
  rcases outcome with failure | ⟨⟩
  · simp only [completed]
    split <;> rfl
  · rfl

theorem records_completed (continues : Continues stopAt (entered.answer (.notice .tickBegun)).2 after)
    (outcome : Outcome Unit) :
    Records entered [⟨entered.now, after.now, some outcome⟩] (completed after outcome) := by
  have noticed := noticed_begun continues
  have ok : after.metrics.get .ticksOk = entered.metrics.get .ticksOk := continues.records.ok
  have failed : after.metrics.get .ticksFailed = entered.metrics.get .ticksFailed := continues.records.failed
  have ended : (after.answer (.notice .tickEnded)).2.tickNotices =
      entered.tickNotices ++ [(entered.now, .tickBegun), (after.now, .tickEnded)] := by
    rw [Stage.tickNotices_notice _ rfl, noticed, List.append_assoc]
    rfl
  rcases outcome with failure | ⟨⟩
  · cases cancelled : failure.isCancelled with
    | true =>
      simp only [completed, cancelled, if_true]
      refine ⟨ended, ?_, ?_⟩
      · simp [Stage.answer, Tick.isOk, ok]
      · simp [Stage.answer, Tick.isFailed, cancelled, failed]
    | false =>
      simp only [completed, cancelled, Bool.false_eq_true, if_false]
      refine ⟨ended, ?_, ?_⟩
      · simp [Stage.answer, Tick.isOk, ok]
      · simp [Stage.answer, Tick.isFailed, cancelled, failed]
  · refine ⟨ended, ?_, ?_⟩
    · simp [completed, Stage.answer, Tick.isOk, ok]
    · simp [completed, Stage.answer, Tick.isFailed, failed]

theorem runs_counted {next : State σ} {outcome : Outcome Unit} {trace : List (Program.Event Request.Reply)}
    {result : Round (State σ)}
    (ran : Program.Runs (Law.paused stopAt) (.ask (.prompt (.notice .tickEnded)) fun () => counted next outcome) before
      trace result after) : after = completed before outcome ∧
      (result = .finished (.ok ()) ∧ (Tick.mk 0 0 (some outcome)).counts = false ∨
        result = .again next ∧ (Tick.mk 0 0 (some outcome)).counts = true) := by
  obtain ⟨_, _, ran⟩ := Stage.runs_prompt ran
  rcases outcome with failure | ⟨⟩
  · simp only [counted] at ran
    split at ran
    next cancelled =>
      obtain ⟨_, same, rfl⟩ := ran.of_done
      refine ⟨(if_pos cancelled).symm, Or.inl ⟨Program.done.inj same, ?_⟩⟩
      simp [Tick.counts, Tick.isOk, Tick.isFailed, cancelled]
    next genuine =>
      obtain ⟨_, _, ran⟩ := Stage.runs_prompt ran
      obtain ⟨_, same, rfl⟩ := ran.of_done
      refine ⟨(if_neg genuine).symm, Or.inr ⟨Program.done.inj same, ?_⟩⟩
      simp [Tick.counts, Tick.isOk, Tick.isFailed, genuine]
  · obtain ⟨_, _, ran⟩ := Stage.runs_prompt ran
    obtain ⟨_, same, rfl⟩ := ran.of_done
    exact ⟨rfl, Or.inr ⟨Program.done.inj same, rfl⟩⟩

/-- What a round hears until its tick begins. -/
def opening (deadline noticed : Nat) : List (Program.Event Request.Reply) :=
  [⟨.prompt .stopRequested, false⟩, ⟨.awaitOrStop (.sleepUntil deadline), some ()⟩, ⟨.prompt .timer, noticed⟩,
    ⟨.prompt .stopRequested, false⟩, ⟨.prompt (.notice .tickBegun), ()⟩]

/-- In what was heard from its beginning on the tick ran from what was kept, and it is told what came of it. -/
def Tick.RanFrom (tick : σ → Procedure (Outcome Unit × σ)) (one : Tick) (kept : σ)
    (heard : List (Program.Event Request.Reply)) : Prop :=
  ∃ inner behind returned, heard = inner ++ behind ∧
    Program.Runs Law.free (tick kept).interruptible () inner returned () ∧ one.outcome = returned.map Prod.fst

/-- What a round begins with, and what it hears. -/
abbrev Told (σ : Type) := State σ × List (Program.Event Request.Reply)

/-- The tick ran in this round. -/
def Tick.RanIn (tick : σ → Procedure (Outcome Unit × σ)) (one : Tick) (round : Told σ) : Prop :=
  ∃ noticed heard, round.2 = opening round.1.deadline noticed ++ heard ∧ one.RanFrom tick round.1.kept heard

/-- From its beginning on a tick is completed or dropped. -/
theorem tick_ends (spares : ∀ kept, Asks (fun request => request.sparesTicks = true) (tick kept)) {kept : σ}
    {deadline noticed : Nat} {trace : List (Program.Event Request.Reply)} {result : Round (State σ)}
    (ran : Program.Runs (Law.paused stopAt) (.ask (.prompt (.notice .tickBegun)) fun () =>
      (tick kept).interruptible >>= ticked interval deadline noticed) entered trace result after) :
    ∃ heard, trace = ⟨.prompt (.notice .tickBegun), ()⟩ :: heard ∧ ∃ one, Ticks stopAt entered.now entered one after ∧
      one.RanFrom tick kept heard ∧ (result = .finished (.ok ()) ∧ one.counts = false ∨
        ∃ kept, result = .again ⟨nextDeadline interval deadline noticed, kept⟩ ∧ one.counts = true) := by
  obtain ⟨_, rfl, begun⟩ := Stage.runs_prompt ran
  obtain ⟨ended, between, inner, behind, rfl, ticks, closes⟩ := Program.Runs.of_bind begun
  refine ⟨_, rfl, ?_⟩
  have yields : ∀ wait, (Request.await wait).sparesTicks = true → (Request.awaitOrStop wait).sparesTicks = true :=
    fun _ _ => rfl
  have continues := Stage.continues_of_steps ((spares kept).interruptible yields) ticks
  have onward : entered.now ≤ between.now := continues.now
  have inTime : entered.now ≤ stopAt → between.now ≤ stopAt := continues.inTime
  rcases ended with _ | ⟨outcome, kept⟩
  · obtain ⟨_, same, rfl⟩ := closes.of_done
    refine ⟨⟨entered.now, after.now, none⟩, ?_, ⟨inner, behind, none, rfl, ticks.freed, rfl⟩,
      Or.inl ⟨Program.done.inj same, rfl⟩⟩
    exact ⟨(Nat.max_self _).symm, onward, rfl, inTime, records_dropped continues,
      fun _ => Stage.stopped_of_interrupted ticks⟩
  · obtain ⟨rfl, ends⟩ := runs_counted closes
    refine ⟨⟨entered.now, between.now, some outcome⟩, ?_, ⟨inner, behind, some (outcome, kept), rfl, ticks.freed, rfl⟩,
      ends.imp id fun ⟨same, counts⟩ => ⟨kept, same, counts⟩⟩
    have now : (completed between outcome).now = between.now := completed_now between outcome
    exact ⟨(Nat.max_self _).symm, onward, now.symm, fun early => now ▸ inTime early,
      records_completed continues outcome, nofun⟩

/-- A round ends at a stop before its tick begins, or with its tick. -/
theorem round_ends (spares : ∀ kept, Asks (fun request => request.sparesTicks = true) (tick kept))
    {trace : List (Program.Event Request.Reply)} {result : Round (State σ)}
    (ran : Program.Runs (Law.paused stopAt) (round interval tick state) before trace result after) :
    (result = .finished (.ok ()) ∧ Continues stopAt before after ∧ after.stopped = true ∧
        after.now ≤ max state.deadline before.now ∧ (before.stopped = false → before.now < state.deadline)) ∨
      ∃ one, Ticks stopAt state.deadline before one after ∧ one.RanIn tick (state, trace) ∧
        (result = .finished (.ok ()) ∧ one.counts = false ∨
          ∃ kept, result = .again ⟨nextDeadline interval state.deadline one.begins, kept⟩ ∧ one.counts = true) := by
  rw [round_run] at ran
  obtain ⟨_, rfl, waits⟩ := Stage.runs_prompt ran
  cases running : before.stopped with
  | true =>
    simp only [Stage.answer, running, if_true] at waits
    obtain ⟨_, same, rfl⟩ := waits.of_done
    exact Or.inl ⟨Program.done.inj same, .refl _ _, running, Nat.le_max_right _ _, by simp⟩
  | false =>
    simp only [Stage.answer, running, Bool.false_eq_true, if_false] at waits
    cases waits with
    | @ask _ _ _ due entered _ _ _ waited looks =>
      rcases due with _ | ⟨⟩
      · have given : before.GivesUp stopAt (.sleepUntil state.deadline) entered := waited
        obtain ⟨_, same, rfl⟩ := looks.of_done
        obtain ⟨early, late⟩ := given.early _ rfl
        exact Or.inl ⟨Program.done.inj same, given.continues, given.stopped,
          Nat.le_trans late (Nat.le_max_left _ _), fun _ => early⟩
      · have heard : before.Hears stopAt (.sleepUntil state.deadline) entered := waited
        obtain ⟨now, same⟩ := heard.onTime _ rfl
        have still : entered.stopped = false := same.trans running
        obtain ⟨_, rfl, looked⟩ := Stage.runs_prompt looks
        obtain ⟨_, rfl, begins⟩ := Stage.runs_prompt looked
        simp only [Stage.answer, still, Bool.false_eq_true, if_false] at begins
        obtain ⟨rest, rfl, one, ticks, within, ends⟩ := tick_ends spares begins
        have begins : one.begins = max state.deadline before.now := by
          rw [ticks.begins, Nat.max_self, now, Nat.max_comm]
        have records := heard.continues.records.append ticks.records
        refine Or.inr ⟨one, ⟨begins, ticks.onward, ticks.ends, ticks.inTime ∘ heard.continues.inTime, records,
          ticks.dropped⟩, ⟨entered.now, rest, ?_, within⟩, ?_⟩
        · simp [opening, Stage.answer, running, still]
        · rw [begins, Nat.max_comm, ← now]
          exact ends

end Loop

end QuorumWarden
