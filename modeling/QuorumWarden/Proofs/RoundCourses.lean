import QuorumWarden.Proofs.ScheduleRounds
import QuorumWarden.Proofs.SteadyDuties

/-! What a round of the backup schedule comes to. Where nobody stops or cancels it, every request of it is answered, and
it leads to another round. Then it has evaluated first, which takes a reading of the frequency on a primary, and has
rested until its wait was over. -/

namespace QuorumWarden

open Procedure (Asks)
open QuorumWarden.Action (heard unlessCancelled)

namespace Bulletin

/-- A schedule that nobody stops and whose calls are not cancelled. -/
def calm : Law Request Request.Reply Bulletin := law.restrict fun event => event.request.Calm event.reply

end Bulletin

namespace BackupSchedule

variable {host : String} {policy : RetryPolicy} {state : State} {trace : List (Program.Event Request.Reply)}

/-- What a round of the schedule asks for. -/
def Scheduling : Request → Prop
  | .prompt _ | .awaitOrStop (.call _) | .awaitOrStop (.sleepUntil _) | .awaitOrStop (.frequencyNews _ _) => True
  | _ => False

theorem scheduling_of_evaluating {request : Request} (evaluating : Evaluating request) : Scheduling request := by
  unfold Evaluating at evaluating
  split at evaluating <;> trivial

theorem round_asks (host : String) (policy : RetryPolicy) (state : State) :
    Asks Scheduling (round host policy state) := by
  rw [round_eq]
  refine .bind ((evaluation_asks host policy).imp fun _ => scheduling_of_evaluating) fun outcome => ?_
  cases outcome with
  | error failure => exact .done
  | ok ended =>
    rw [evaluated_run]
    refine .ask trivial fun now => .ask trivial fun stop => ?_
    cases stop with
    | true => exact .done
    | false =>
      simp only [Bool.false_eq_true, if_false, resting]
      split
      · refine .ask trivial fun news => ?_
        cases news <;> exact .done
      · refine .ask trivial fun slept => ?_
        cases slept <;> exact .done

theorem calm_awaitOrStop {wait : Wait} (reply : wait.Reply) {before after : Bulletin} (later : before.Later after)
    (ends : after.Ends wait reply) (quiet : wait.Calm reply) :
    Bulletin.calm.Answers (.awaitOrStop wait) before := ⟨some reply, after, ⟨later, ends⟩, reply, rfl, quiet⟩

/-- No request of a round is left without an answer. -/
theorem scheduling_answered {request : Request} (scheduling : Scheduling request) (bulletin : Bulletin) :
    Bulletin.calm.Answers request bulletin := by
  have now := Bulletin.Later.refl bulletin
  have rung (time : Nat) : bulletin.Later ⟨max bulletin.now time, bulletin.frequency⟩ :=
    ⟨[], .pass (Nat.le_max_left _ _) .refl⟩
  cases request with
  | prompt asked =>
    cases asked with
    | stopRequested => exact ⟨false, bulletin, ⟨now, trivial⟩, rfl⟩
    | timer => exact ⟨bulletin.now, bulletin, ⟨now, rfl⟩, trivial⟩
    | frequency => exact ⟨bulletin.frequency.value, bulletin, ⟨now, rfl⟩, trivial⟩
    | steadyClock => exact ⟨0, bulletin, ⟨now, trivial⟩, trivial⟩
    | wallClock => exact ⟨⟨0, 0⟩, bulletin, ⟨now, trivial⟩, trivial⟩
    | requestStop | count | notice => exact ⟨(), bulletin, ⟨now, trivial⟩, trivial⟩
    | readMarker => exact ⟨.ok none, bulletin, ⟨now, trivial⟩, Outcome.uncancelled_ok _⟩
    | writeMarker | removeMarker => exact ⟨.ok (), bulletin, ⟨now, trivial⟩, Outcome.uncancelled_ok _⟩
  | await wait => exact scheduling.elim
  | awaitOrStop wait =>
    cases wait with
    | call made =>
      have failed : Outcome.Uncancelled (.error (.message "") : Outcome made.Payload) := by rintro _ ⟨⟩; rfl
      exact calm_awaitOrStop _ now trivial failed
    | sleepUntil time => exact calm_awaitOrStop () (rung time) (Nat.le_max_right _ _) trivial
    | frequencyNews seen deadline =>
      cases found : bulletin.frequency.news? seen with
      | some news =>
        have ends : bulletin.Ends (.frequencyNews seen deadline) news := by simp only [Bulletin.Ends, found, Option.elim]
        exact calm_awaitOrStop news now ends trivial
      | none =>
        have ends : Bulletin.Ends ⟨max bulletin.now deadline, bulletin.frequency⟩ (.frequencyNews seen deadline)
            .elapsed := by
          simp only [Bulletin.Ends, found, Option.elim, Nat.le_max_right, and_self]
        exact calm_awaitOrStop _ (rung deadline) ends trivial
    | gather | ending | forever => exact scheduling.elim

theorem again_of_calm {σ : Type} {law : Law Request Request.Reply σ} {result : Round State} {before after : σ}
    (ran : Program.Runs law (round host policy state) before trace result after)
    (calm : ∀ event ∈ trace, event.request.Calm event.reply) : ∃ next, result = .again next := by
  have quiet : Program.Runs (Law.when True) (round host policy state) () trace result () :=
    (ran.freed.restrict calm).mono fun _ _ _ _ answered _ => answered.2
  exact (steady_round policy state).steps quiet trivial

/-- From wherever a round is that nobody stopped or cancelled, it can come to another round. -/
theorem round_comes {begun paused : Bulletin} {left : Procedure (Round State)}
    (steps : Program.Steps Bulletin.calm (round host policy state) begun trace left paused) :
    ∃ rest next after, Program.Runs Bulletin.calm left paused rest (.again next) after := by
  have answered : Program.Holds Bulletin.calm Bulletin.calm.Answers (fun _ _ => True) (round host policy state) begun :=
    (round_asks host policy state).holds.mono (fun _ bulletin asked => scheduling_answered asked bulletin)
      fun _ _ _ => trivial
  obtain ⟨rest, result, after, ran⟩ := (answered.steps steps).completes
  obtain ⟨going, calm⟩ := (steps.trans ran).admitted
  obtain ⟨next, rfl⟩ := again_of_calm going calm
  exact ⟨rest, next, after, ran⟩

/-- What a round hears until it has found its node to be a primary, or not. -/
def enquiry (host : String) (members : List Member) : List (Program.Event Request.Reply) :=
  [⟨.prompt .stopRequested, false⟩, ⟨.prompt .stopRequested, false⟩,
    ⟨.awaitOrStop (.call (.connect host)), some (.ok ())⟩,
    ⟨.awaitOrStop (.call (.listMembers host)), some (.ok members)⟩]

/-- What an evaluation hears that is not cut short. On a primary it reads the frequency. -/
inductive Enquired (host : String) : List (Program.Event Request.Reply) → Prop where
  | unreached (failure : Failure) :
      Enquired host [⟨.prompt .stopRequested, false⟩, ⟨.prompt .stopRequested, false⟩,
        ⟨.awaitOrStop (.call (.connect host)), some (.error failure)⟩]
  | unlisted (failure : Failure) :
      Enquired host [⟨.prompt .stopRequested, false⟩, ⟨.prompt .stopRequested, false⟩,
        ⟨.awaitOrStop (.call (.connect host)), some (.ok ())⟩,
        ⟨.awaitOrStop (.call (.listMembers host)), some (.error failure)⟩]
  | idle (members : List Member) (other : (Topology.mk members).roleOf host ≠ .primary) :
      Enquired host (enquiry host members)
  | reads (members : List Member) (primary : (Topology.mk members).roleOf host = .primary) (frequency : Duration)
      (rest : List (Program.Event Request.Reply)) :
      Enquired host (enquiry host members ++ ⟨.prompt .frequency, frequency⟩ :: rest)

/-- What a round hears in its wait that is not cut short, and what the schedule knows then. The wait is for news as long
as there may be any. -/
inductive Rested (wait : Duration) (state : State) : List (Program.Event Request.Reply) → State → Prop where
  | watching (live : state.live = true) (time : Nat) (news : FrequencyNews) :
      Rested wait state [⟨.prompt .timer, time⟩, ⟨.prompt .stopRequested, false⟩,
        ⟨.awaitOrStop (.frequencyNews state.seen (time + Timer.span wait.millis)), some news⟩] (state.heard news)
  | alone (gone : state.live = false) (time : Nat) :
      Rested wait state [⟨.prompt .timer, time⟩, ⟨.prompt .stopRequested, false⟩,
        ⟨.awaitOrStop (.sleepUntil (time + Timer.span wait.millis)), some ()⟩] state

/-- What a round hears and comes to. -/
inductive Course (host : String) (state : State) : List (Program.Event Request.Reply) → Round State → Prop where
  | cut {told} (disturbed : ∃ event ∈ told, ¬event.request.Calm event.reply) :
      Course host state told (.finished (.ok ()))
  | through {first second wait next} (enquired : Enquired host first) (rested : Rested wait state second next) :
      Course host state (first ++ second) (.again next)

theorem evaluate_enquired {outcome : Outcome Duration}
    (ran : Program.Runs Law.free (evaluate host policy).run () trace outcome ()) (uncancelled : outcome.Uncancelled) :
    Enquired host (⟨.prompt .stopRequested, false⟩ :: trace.map Program.Event.yielding) := by
  have going : outcome ≠ .error .cancelled := fun same => Bool.false_ne_true (uncancelled _ same).symm
  rw [evaluate_run] at ran
  obtain ⟨stop, _, rfl, connects⟩ := Program.runs_ask_iff.mp ran
  cases stop with
  | true => exact absurd (Program.done.inj connects.of_done.2.1) going
  | false =>
    obtain ⟨reached, _, rfl, connected⟩ := Program.runs_ask_iff.mp connects
    rcases reached with _ | failure | _
    · exact absurd (Program.done.inj connected.of_done.2.1) going
    · obtain ⟨rfl, _⟩ := connected.of_done
      exact .unreached failure
    obtain ⟨listed, _, rfl, finds⟩ := Program.runs_ask_iff.mp connected
    rcases listed with _ | failure | members
    · exact absurd (Program.done.inj finds.of_done.2.1) going
    · obtain ⟨rfl, _⟩ := finds.of_done
      exact .unlisted failure
    by_cases primary : (Topology.mk members).roleOf host = .primary
    · simp only [heard, if_pos primary] at finds
      obtain ⟨frequency, rest, rfl, _⟩ := Program.runs_ask_iff.mp finds
      exact .reads members primary frequency _
    · simp only [heard, if_neg primary] at finds
      obtain ⟨rfl, _⟩ := finds.of_done
      exact .idle members primary

theorem evaluation_enquired {ended : Outcome Duration}
    (ran : Program.Runs Law.free (evaluation host policy) () trace (.ok ended) ()) : Enquired host trace := by
  rw [evaluation_run] at ran
  obtain ⟨stop, _, rfl, entered⟩ := Program.runs_ask_iff.mp ran
  cases stop with
  | true => cases entered
  | false =>
    obtain ⟨heard, _, first, second, rfl, evaluates, settles⟩ := Program.Runs.of_bind entered
    rcases Action.ran_interruptible evaluates with ⟨rfl, _⟩ | ⟨outcome, inner, rfl, rfl, inside⟩
    · cases settles
    have settled : second = [] ∧ Outcome.Uncancelled outcome := by
      rcases outcome with failure | wait
      · obtain ⟨rfl, same, _⟩ := settles.of_done
        refine ⟨rfl, ?_⟩
        rintro _ ⟨⟩
        cases cancelled : failure.isCancelled with
        | false => rfl
        | true => simp [cancelled] at same
      · exact ⟨settles.of_done.1, Outcome.uncancelled_ok _⟩
    obtain ⟨rfl, uncancelled⟩ := settled
    rw [List.append_nil]
    exact evaluate_enquired inside uncancelled

theorem rest_rested {wait : Duration} {next : State}
    (ran : Program.Runs Law.free (rest wait state) () trace (some next) ()) : Rested wait state trace next := by
  rw [rest_run] at ran
  obtain ⟨time, _, rfl, looks⟩ := Program.runs_ask_iff.mp ran
  obtain ⟨stop, _, rfl, waits⟩ := Program.runs_ask_iff.mp looks
  cases stop with
  | true => cases waits
  | false =>
    simp only [Bool.false_eq_true, if_false] at waits
    split at waits
    next live =>
      obtain ⟨news, _, rfl, woke⟩ := Program.runs_ask_iff.mp waits
      obtain ⟨rfl, same, _⟩ := woke.of_done
      cases news with
      | none => cases same
      | some news =>
        cases same
        exact .watching live time news
    next gone =>
      obtain ⟨slept, _, rfl, woke⟩ := Program.runs_ask_iff.mp waits
      obtain ⟨rfl, same, _⟩ := woke.of_done
      cases slept with
      | none => cases same
      | some slept =>
        cases same
        exact .alone (Bool.eq_false_iff.mpr gone) time

theorem round_finished {σ : Type} {law : Law Request Request.Reply σ} {result : Round State} {before after : σ}
    (ran : Program.Runs law (round host policy state) before trace result after) :
    (∃ next, result = .again next) ∨ result = .finished (.ok ()) := by
  rw [round_eq] at ran
  obtain ⟨outcome, _, _, _, _, _, onward⟩ := Program.Runs.of_bind ran
  cases outcome with
  | error failure => exact Or.inr (Program.done.inj onward.of_done.2.1)
  | ok ended =>
    obtain ⟨slept, _, _, _, _, _, last⟩ := Program.Runs.of_bind onward
    cases slept with
    | none => exact Or.inr (Program.done.inj last.of_done.2.1)
    | some next => exact Or.inl ⟨next, Program.done.inj last.of_done.2.1⟩

theorem round_course {σ : Type} {law : Law Request Request.Reply σ} {result : Round State} {before after : σ}
    (ran : Program.Runs law (round host policy state) before trace result after) : Course host state trace result := by
  rcases round_finished ran with ⟨next, rfl⟩ | rfl
  · obtain ⟨ended, _, first, second, rfl, evaluates, rests⟩ := round_again ran
    exact .through (evaluation_enquired evaluates.freed) (rest_rested rests.freed)
  · refine .cut (Classical.byContradiction fun calm => ?_)
    obtain ⟨_, same⟩ := again_of_calm ran fun event member =>
      Classical.byContradiction fun disturbed => calm ⟨event, member, disturbed⟩
    cases same

end BackupSchedule

end QuorumWarden
