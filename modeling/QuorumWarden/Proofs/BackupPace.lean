import QuorumWarden.Proofs.BackupDue
import QuorumWarden.Proofs.ScheduleRounds

/-! How long the schedule rests after a round of attempts that was exhausted. It rests for the frequency it has read,
unless there is news: then it does not rest at all, even if nobody has sent anything since. -/

namespace QuorumWarden

open Procedure (Asks HeadsFor)
open QuorumWarden.Action (heard unlessCancelled)

namespace BackupSchedule

variable {host : String} {policy : RetryPolicy} {state : State}

/-- What a trace of an evaluation shows that has counted a failed backup. -/
structure Exhausted (trace : List (Program.Event Request.Reply)) (outcome : Outcome Duration) (frequency : Duration) :
    Prop where
  outcome : outcome = .ok frequency
  read : ∀ value, ⟨.prompt .frequency, value⟩ ∈ trace ↔ value = frequency

theorem concluded_exhausted {frequency : Duration} {backups : List BackupRecord} {now : Timestamp}
    {trace : List (Program.Event Request.Reply)} {outcome : Outcome Duration}
    (ran : Program.Runs Law.free (concluded policy frequency backups now) () trace outcome ())
    (failed : ⟨.prompt (.count .backupsFailed), ()⟩ ∈ trace) :
    outcome = .ok frequency ∧ ∀ value : Duration, ⟨.prompt .frequency, value⟩ ∉ trace := by
  rw [concluded] at ran
  split at ran
  · obtain ⟨rfl, _, _⟩ := ran.of_done
    cases failed
  obtain ⟨made, _, first, second, rfl, attempts, tallies⟩ := Program.Runs.of_bind ran
  -- An attempt fails by a counter of its own, so the failed backup is counted after the last of them.
  have attempting : ∀ event ∈ first, Backup.Attempting (wanted backups now) event.request := by
    intro event member
    obtain ⟨_, asked⟩ := (Asks.settled (Backup.attemptFrom_asks _ _ _ _)).asked attempts event member
    exact asked
  have unread : ∀ value : Duration, ⟨.prompt .frequency, value⟩ ∉ first := fun value member => attempting _ member
  have uncounted : ⟨.prompt (.count .backupsFailed), ()⟩ ∉ first := fun member => attempting _ member
  rcases made with failure | failure | output
  · obtain ⟨rfl, _, _⟩ := tallies.of_done
    simp [uncounted] at failed
  · obtain ⟨_, _, rfl, last⟩ := Program.runs_ask_iff.mp tallies
    obtain ⟨rfl, same, _⟩ := last.of_done
    exact ⟨Program.done.inj same, by simp [unread]⟩
  · obtain ⟨_, _, rfl, last⟩ := Program.runs_ask_iff.mp tallies
    obtain ⟨rfl, _, _⟩ := last.of_done
    simp [uncounted] at failed

theorem evaluate_exhausted {trace : List (Program.Event Request.Reply)} {outcome : Outcome Duration}
    (ran : Program.Runs Law.free (evaluate host policy).run () trace outcome ())
    (failed : ⟨.prompt (.count .backupsFailed), ()⟩ ∈ trace) : ∃ frequency, Exhausted trace outcome frequency := by
  rw [evaluate_run] at ran
  rcases Action.runs_unlessCancelled ran with rfl | ⟨_, rfl, connects⟩
  · simp at failed
  obtain ⟨_, _, rfl, connected⟩ := Program.runs_ask_iff.mp connects
  rcases Action.runs_heard connected with rfl | ⟨_, lists⟩
  · simp at failed
  obtain ⟨_, _, rfl, listed⟩ := Program.runs_ask_iff.mp lists
  rcases Action.runs_heard listed with rfl | ⟨members, finds⟩
  · simp at failed
  split at finds
  · obtain ⟨frequency, _, rfl, looks⟩ := Program.runs_ask_iff.mp finds
    rcases Action.runs_unlessCancelled looks with rfl | ⟨_, rfl, searches⟩
    · simp at failed
    obtain ⟨_, _, rfl, found⟩ := Program.runs_ask_iff.mp searches
    rcases Action.runs_heard found with rfl | ⟨backups, reads⟩
    · simp at failed
    obtain ⟨now, _, rfl, concludes⟩ := Program.runs_ask_iff.mp reads
    obtain ⟨same, unread⟩ := concluded_exhausted concludes (by simpa using failed)
    exact ⟨frequency, same, fun value => by simp [unread]⟩
  · obtain ⟨rfl, _, _⟩ := finds.of_done
    simp at failed

theorem evaluation_exhausted {trace : List (Program.Event Request.Reply)} {outcome : Outcome Duration}
    (ran : Program.Runs Law.free (evaluation host policy) () trace (.ok outcome) ())
    (failed : ⟨.prompt (.count .backupsFailed), ()⟩ ∈ trace) : ∃ frequency, Exhausted trace outcome frequency := by
  rw [evaluation_run] at ran
  obtain ⟨stop, _, rfl, entered⟩ := Program.runs_ask_iff.mp ran
  cases stop with
  | true => cases entered
  | false =>
    obtain ⟨ended, _, first, second, rfl, evaluates, settles⟩ := Program.Runs.of_bind entered
    rcases Action.ran_interruptible evaluates with ⟨rfl, _⟩ | ⟨value, inner, rfl, rfl, inside⟩
    · cases settles
    have settled : second = [] ∧ ∀ frequency, value = .ok frequency → outcome = .ok frequency := by
      rcases value with failure | value
      · exact ⟨settles.of_done.1, nofun⟩
      · obtain ⟨rfl, same, _⟩ := settles.of_done
        cases same
        exact ⟨rfl, fun _ => id⟩
    obtain ⟨rfl, same⟩ := settled
    obtain ⟨frequency, exhausted⟩ := evaluate_exhausted inside (by simpa [Program.Event.mem_map_yielding] using failed)
    refine ⟨frequency, same frequency exhausted.outcome, fun value => ?_⟩
    simpa [Program.Event.mem_map_yielding] using exhausted.read value

/-- After the wait, and whatever rounds follow it, a backup is asked for. -/
def Onward (host : String) (policy : RetryPolicy) (state : State) (wait : Duration) (ended woken called : Bulletin) :
    Prop :=
  ∃ silence next last begun trace left wanted,
    Program.Runs Bulletin.law (rest wait state) ended silence (some next) woken ∧
      Laps Bulletin.law (round host policy) next woken last begun ∧
      Program.Steps Bulletin.law (round host policy last) begun trace left called ∧
      left.pending = some (.awaitOrStop (.call (.backup wanted)))

variable {wait : Duration} {ended woken called : Bulletin}

theorem Onward.later (onward : Onward host policy state wait ended woken called) :
    ended.Later woken ∧ woken.Later called := by
  obtain ⟨_, _, _, _, _, _, _, rests, laps, steps, _⟩ := onward
  exact ⟨Bulletin.steps_later rests, laps.later.trans (Bulletin.steps_later steps)⟩

/-- There is something to be seen that the schedule has not seen. -/
def State.HasNews (state : State) (bulletin : Bulletin) : Prop :=
  state.live = true ∧ bulletin.frequency.news? state.seen ≠ none

instance (state : State) (bulletin : Bulletin) : Decidable (state.HasNews bulletin) :=
  inferInstanceAs (Decidable (_ ∧ _))

theorem Onward.rested (onward : Onward host policy state wait ended woken called) :
    ended.now + Timer.span wait.millis ≤ called.now ∨ state.HasNews woken := by
  have reached := onward.later.2.now_le
  obtain ⟨_, _, _, _, _, _, _, rests, _⟩ := onward
  obtain ⟨time, onTime, _, woke⟩ := rest_woken rests
  rw [Woken] at woke
  split at woke
  next live =>
    obtain ⟨news, ends, _⟩ := woke
    rw [Bulletin.Ends] at ends
    cases found : woken.frequency.news? state.seen with
    | some news => exact Or.inr ⟨live, by simp [found]⟩
    | none =>
      rw [found] at ends
      obtain ⟨_, past⟩ := ends
      exact Or.inl (by omega)
  next gone => exact Or.inl (by omega)

/-- The shortest rest from then on, if nothing is sent any more and nobody leaves. -/
def shortestRest (state : State) (wait : Duration) (ended : Bulletin) : Nat :=
  if state.HasNews ended then 0 else Timer.span wait.millis

theorem Onward.shortestRest_le (onward : Onward host policy state wait ended woken called)
    (same : called.frequency = ended.frequency) : ended.now + shortestRest state wait ended ≤ called.now := by
  have unchanged := onward.later.1.frequency_eq onward.later.2 same
  rw [shortestRest]
  split
  next => exact (onward.later.1.trans onward.later.2).now_le
  next quiet =>
    refine onward.rested.resolve_right fun news => quiet ?_
    rw [State.HasNews, unchanged] at news
    exact news

theorem rest_shortest (wait : Duration) (state : State) (ended : Bulletin) : ∃ silence next woken,
    Program.Runs Bulletin.law (rest wait state) ended silence (some next) woken ∧
      woken.frequency = ended.frequency ∧ woken.now = ended.now + shortestRest state wait ended := by
  have begins : ∀ {silence next woken}, Program.Runs Bulletin.law (if state.live then
        .ask (.awaitOrStop (.frequencyNews state.seen (ended.now + Timer.span wait.millis))) fun news =>
          .done (news.map state.heard)
      else .ask (.awaitOrStop (.sleepUntil (ended.now + Timer.span wait.millis))) fun slept =>
        .done (slept.map fun () => state)) ended silence (some next) woken →
      Program.Runs Bulletin.law (rest wait state) ended
        (⟨.prompt .timer, ended.now⟩ :: ⟨.prompt .stopRequested, false⟩ :: silence) (some next) woken := by
    intro silence next woken ran
    rw [rest_run]
    exact .ask ⟨.refl _, rfl⟩ (.ask ⟨.refl _, trivial⟩ ran)
  let rung : Bulletin := ⟨ended.now + Timer.span wait.millis, ended.frequency⟩
  have passes : ended.Later rung := ⟨[], .pass (Nat.le_add_right _ _) .refl⟩
  rw [shortestRest]
  by_cases live : state.live = true
  · simp only [if_pos live] at begins
    cases found : ended.frequency.news? state.seen with
    | some news =>
      have answered : ended.Answers
          (.awaitOrStop (.frequencyNews state.seen (ended.now + Timer.span wait.millis))) (some news) := by
        simp only [Bulletin.Answers, Bulletin.Ends, found, Option.elim]
      rw [if_pos ⟨live, by simp [found]⟩]
      exact ⟨_, _, ended, begins (.ask ⟨.refl _, answered⟩ .refl), rfl, rfl⟩
    | none =>
      have answered : rung.Answers
          (.awaitOrStop (.frequencyNews state.seen (ended.now + Timer.span wait.millis))) (some .elapsed) := by
        simp only [Bulletin.Answers, Bulletin.Ends, rung, found, Option.elim, Nat.le_refl, and_self]
      rw [if_neg fun news => news.2 found]
      exact ⟨_, _, rung, begins (.ask ⟨passes, answered⟩ .refl), rfl, rfl⟩
  · simp only [if_neg live] at begins
    have answered : rung.Answers (.awaitOrStop (.sleepUntil (ended.now + Timer.span wait.millis))) (some ()) :=
      Nat.le_refl _
    rw [if_neg fun news => live news.1]
    exact ⟨_, _, rung, begins (.ask ⟨passes, answered⟩ .refl), rfl, rfl⟩

theorem steps_alone (host : String) (policy : RetryPolicy) (frequency : Duration) :
    Program.Steps Law.free (evaluate host policy).run ()
      (readings host [⟨1, host, "", true, .primary⟩] frequency [] Stage.dawn) (concluded policy frequency [] Stage.dawn)
      () := by
  have primary : (Topology.mk [⟨1, host, "", true, .primary⟩]).roleOf host = .primary := by
    simp [Topology.roleOf, Topology.member?]
  exact (steps_readings_iff primary).mpr rfl

theorem calls_atOnce (host : String) (policy : RetryPolicy) (state : State) (bulletin : Bulletin) :
    ∃ trace left wanted, Program.Steps Bulletin.law (round host policy state) bulletin trace left bulletin ∧
      left.pending = some (.awaitOrStop (.call (.backup wanted))) := by
  have heads : (concluded policy bulletin.frequency.value [] Stage.dawn).HeadsFor (.backup (wanted [] Stage.dawn)) :=
    concluded_headsFor_iff.mpr (show ¬(0 : Int) < -1000000000 by decide)
  obtain ⟨looks, left, onward, looked, pending⟩ := heads.steps
  have reads := (steps_alone host policy bulletin.frequency.value).trans onward
  have evaluates := steps_evaluation reads (by
    simp only [List.forall_mem_append]
    refine ⟨by simp [readings, Program.Event.yielding, Program.Event.stops], fun event member => ?_⟩
    rw [looked event member]
    exact ⟨rfl, Bool.false_ne_true⟩)
  have answered : ∀ event ∈ ⟨.prompt .stopRequested, false⟩ ::
      (readings host [⟨1, host, "", true, .primary⟩] bulletin.frequency.value [] Stage.dawn ++ looks),
      bulletin.Answers event.request event.reply := by
    simp only [List.forall_mem_cons, List.forall_mem_append]
    refine ⟨trivial, by simp [readings, Bulletin.Answers, Bulletin.Shows, Bulletin.Ends], fun event member => ?_⟩
    rw [looked event member]
    trivial
  have steps := Bulletin.steps_atOnce (round_eq host policy state ▸ evaluates.bind_left _) answered
  have asked := Program.pending_bind (Procedure.pending_interruptible pending) Action.settling
  exact ⟨_, _, _, steps, Program.pending_bind asked _⟩

theorem onward_shortest (host : String) (policy : RetryPolicy) (state : State) (wait : Duration) (ended : Bulletin) :
    ∃ called, Onward host policy state wait ended called called ∧ called.frequency = ended.frequency ∧
      called.now = ended.now + shortestRest state wait ended := by
  obtain ⟨silence, next, woken, rests, same, now⟩ := rest_shortest wait state ended
  obtain ⟨trace, left, wanted, steps, pending⟩ := calls_atOnce host policy next woken
  exact ⟨woken, ⟨silence, next, next, woken, trace, left, wanted, rests, .start, steps, pending⟩, same, now⟩

/-- After an exhausted round the schedule rests for the frequency it has read or until there is news. How long it rests
at least is known when the round ends, as long as nothing is sent any more and nobody leaves. -/
theorem rest_after_failure (host : String) (policy : RetryPolicy) (state : State) {begun ended : Bulletin}
    {trace : List (Program.Event Request.Reply)} {outcome : Outcome Duration}
    (ran : Program.Runs Bulletin.law (evaluation host policy) begun trace (.ok outcome) ended)
    (failed : ⟨.prompt (.count .backupsFailed), ()⟩ ∈ trace) :
    ∃ frequency, Exhausted trace outcome frequency ∧
      (∀ woken called, Onward host policy state frequency ended woken called →
        (ended.now + Timer.span frequency.millis ≤ called.now ∨ state.HasNews woken) ∧
        (called.frequency = ended.frequency → ended.now + shortestRest state frequency ended ≤ called.now)) ∧
      ∃ called, Onward host policy state frequency ended called called ∧ called.frequency = ended.frequency ∧
        called.now = ended.now + shortestRest state frequency ended := by
  obtain ⟨frequency, exhausted⟩ := evaluation_exhausted ran.freed failed
  exact ⟨frequency, exhausted, fun _ _ onward => ⟨onward.rested, onward.shortestRest_le⟩,
    onward_shortest host policy state frequency ended⟩

/-- What an evaluation hears after its readings, if its only attempt fails. -/
def oneFailure (wanted : BackupRequest) (failure : Failure) : List (Program.Event Request.Reply) :=
  [⟨.prompt .stopRequested, false⟩, ⟨.prompt .stopRequested, false⟩,
    ⟨.awaitOrStop (.call (.backup wanted)), some (.error failure)⟩, ⟨.prompt (.count .backupAttemptsFailed), ()⟩,
    ⟨.prompt (.count .backupsFailed), ()⟩]

theorem concluded_oneFailure (delay frequency : Duration) {failure : Failure} (other : failure.isCancelled = false) :
    Program.Runs Law.free (concluded ⟨1, delay⟩ frequency [] Stage.dawn) ()
      (oneFailure (wanted [] Stage.dawn) failure) (.ok frequency) () := by
  have overdue : ¬0 < Backup.timeUntilDue (Backup.lastCompleted []) frequency Stage.dawn :=
    show ¬(0 : Int) < -1000000000 by decide
  have attempts : (Backup.attempts ⟨1, delay⟩ (wanted [] Stage.dawn)).run = _ :=
    Backup.attemptFrom_run delay (wanted [] Stage.dawn) 0 1
  have settles : (Action.settled (Backup.attempts ⟨1, delay⟩ (wanted [] Stage.dawn))).run = _ :=
    congrArg (· >>= _) attempts
  rw [concluded, if_neg overdue]
  simp only [settles, oneFailure, Program.Runs, Program.ask_bind, Program.steps_free_cons, Bool.false_eq_true, if_false,
    Backup.afterCall, other]
  exact Program.steps_free_cons.mpr .refl

/-- What a round hears on a node alone, up to the failure of its only attempt. -/
def failing (host : String) (frequency : Duration) (failure : Failure) : List (Program.Event Request.Reply) :=
  ⟨.prompt .stopRequested, false⟩ :: (readings host [⟨1, host, "", true, .primary⟩] frequency [] Stage.dawn ++
    oneFailure (wanted [] Stage.dawn) failure)

theorem evaluation_failing (host : String) (delay frequency : Duration) {failure : Failure}
    (other : failure.isCancelled = false) : Program.Runs Law.free (evaluation host ⟨1, delay⟩) ()
      (failing host frequency failure) (.ok (.ok frequency)) () := by
  have reads := steps_alone host ⟨1, delay⟩ frequency
  exact steps_evaluation (reads.trans (concluded_oneFailure delay frequency other))
    (by simp [readings, oneFailure, Program.Event.yielding, Program.Event.stops])

theorem answers_failing {host : String} {failure : Failure} (bulletin : Bulletin) :
    ∀ event ∈ failing host bulletin.frequency.value failure, bulletin.Answers event.request event.reply := by
  simp [failing, readings, oneFailure, Bulletin.Answers, Bulletin.Shows, Bulletin.Ends]

/-- An hour is rested while the sender of the frequency is there. -/
theorem rest_of_hour :
    let begun : Bulletin := ⟨0, { value := .ofSeconds 3600 }⟩
    let trace := failing "a" (.ofSeconds 3600) (.message "no space")
    Program.Runs Bulletin.law (evaluation "a" ⟨1, .ofSeconds 30⟩) begun trace (.ok (.ok (.ofSeconds 3600))) begun ∧
      ⟨.prompt (.count .backupsFailed), ()⟩ ∈ trace ∧
      ∀ woken called, Onward "a" ⟨1, .ofSeconds 30⟩ {} (.ofSeconds 3600) begun woken called →
        called.frequency = begun.frequency → 3600000 ≤ called.now := by
  intro begun trace
  have ran : Program.Runs Bulletin.law (evaluation "a" ⟨1, .ofSeconds 30⟩) begun trace _ begun :=
    Bulletin.steps_atOnce (evaluation_failing "a" (.ofSeconds 30) (.ofSeconds 3600) rfl) (answers_failing begun)
  have failed : ⟨.prompt (.count .backupsFailed), ()⟩ ∈ trace := by simp [trace, failing, oneFailure]
  obtain ⟨frequency, ⟨same, _⟩, rests, _⟩ := rest_after_failure "a" ⟨1, .ofSeconds 30⟩ {} ran failed
  cases same
  have quiet : ¬State.HasNews {} begun := fun news => news.2 rfl
  have rest : shortestRest {} (.ofSeconds 3600) begun = 3600000 := by
    rw [shortestRest, if_neg quiet]
    decide
  refine ⟨ran, failed, fun woken called onward unchanged => ?_⟩
  have rested := (rests woken called onward).2 unchanged
  rw [rest] at rested
  exact Nat.le_trans (Nat.le_add_left _ _) rested

/-- The sender leaves after an exhausted round, and the next call comes at once. Nothing was ever sent. -/
theorem no_rest_when_sender_leaves :
    let begun : Bulletin := ⟨0, { value := .ofSeconds 3600 }⟩
    let trace := failing "a" (.ofSeconds 3600) (.message "no space")
    ∃ ended woken called, Laps Bulletin.law (round "a" ⟨1, .ofSeconds 30⟩) {} begun {} begun ∧
      Program.Runs Bulletin.law (evaluation "a" ⟨1, .ofSeconds 30⟩) begun trace (.ok (.ok (.ofSeconds 3600))) ended ∧
      ⟨.prompt (.count .backupsFailed), ()⟩ ∈ trace ∧
      Onward "a" ⟨1, .ofSeconds 30⟩ {} (.ofSeconds 3600) ended woken called ∧
      begun.Changes [] called ∧ called.now = ended.now := by
  intro begun trace
  let left : Bulletin := ⟨0, { value := .ofSeconds 3600, live := false }⟩
  have leaves : begun.Changes [] left := .close .refl
  have ran : Program.Runs Bulletin.law (evaluation "a" ⟨1, .ofSeconds 30⟩) left trace _ left :=
    Bulletin.steps_atOnce (evaluation_failing "a" (.ofSeconds 30) (.ofSeconds 3600) rfl) (answers_failing left)
  obtain ⟨called, onward, same, now⟩ := onward_shortest "a" ⟨1, .ofSeconds 30⟩ {} (.ofSeconds 3600) left
  have atOnce : called = left := by
    rw [shortestRest, if_pos (by decide)] at now
    exact congr (congrArg Bulletin.mk now) same
  subst atOnce
  exact ⟨left, left, left, .start, Bulletin.steps_of_later ⟨_, leaves⟩ ran, by simp [trace, failing, oneFailure],
    onward, leaves, rfl⟩

end BackupSchedule

end QuorumWarden
