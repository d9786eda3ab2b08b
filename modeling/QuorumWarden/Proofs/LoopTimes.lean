import Mathlib.Data.List.Forall2
import QuorumWarden.Proofs.LoopRounds
import QuorumWarden.Simulation.Drill

/-! Loops on a paused clock. A loop keeps to its timetable and counts the ticks that are completed; at a stop it begins
no tick, drops the one that is under way and ends in good order. -/

namespace QuorumWarden

open Procedure (Asks)

namespace Loop

variable {σ κ : Type} {interval stopAt : Nat} {tick : σ → Procedure (Outcome Unit × σ)} {state : State σ}
  {start begun after : Stage κ}

/-- What the completed rounds of a loop have left. -/
structure Progress (interval stopAt : Nat) (tick : σ → Procedure (Outcome Unit × σ)) (start : Stage κ)
    (rounds : List (Told σ)) (ticks : List Tick) (deadline : Nat) (begun : Stage κ) : Prop where
  ran : List.Forall₂ (Tick.RanIn tick) ticks rounds
  timetable : Timetable interval start.now ticks deadline begun.now
  records : start.Records ticks begun
  counted : ∀ tick ∈ ticks, tick.counts = true
  inTime : start.now ≤ stopAt → begun.now ≤ stopAt
  first : ticks = [] → begun.stopped = start.stopped

variable {rounds : List (Told σ)} {ticks : List Tick} {deadline : Nat}

theorem Ticks.timetable {one : Tick} (ended : Ticks stopAt deadline begun one after)
    (table : Timetable interval start.now ticks deadline begun.now) :
    Timetable interval start.now (ticks ++ [one]) (nextDeadline interval deadline one.begins) after.now := by
  obtain ⟨begins, ends, outcome⟩ := one
  obtain rfl := ended.begins
  rw [← ended.ends]
  exact .tick table ended.onward outcome

/-- How a loop has kept time when it is over. -/
structure Report (interval stopAt : Nat) (tick : σ → Procedure (Outcome Unit × σ)) (start : Stage κ)
    (rounds : List (Told σ)) (ticks : List Tick) (after : Stage κ) : Prop where
  -- The last round may have ended before its tick began.
  ran : List.Forall₂ (Tick.RanIn tick) ticks rounds ∨ List.Forall₂ (Tick.RanIn tick) ticks rounds.dropLast
  -- A loop that ends with no tick under way was stopped before the next one was due.
  timetable : ∃ deadline free, Timetable interval start.now ticks deadline free ∧
    ((∀ tick ∈ ticks, tick.counts = true) → after.stopped = true ∧ after.now ≤ max deadline free)
  timely : Timely interval start.now ticks
  first : start.stopped = false → ticks ≠ []
  ended : ∀ tick ∈ ticks, tick.ends ≤ after.now
  inTime : after.now ≤ stopAt
  counted : ∀ tick ∈ ticks.dropLast, tick.counts = true
  dropped : ∀ tick ∈ ticks, tick.outcome = none → tick.ends = after.now ∧ after.stopped = true
  records : start.Records ticks after

theorem outcome_of_counts {one : Tick} (counts : one.counts = true) : one.outcome ≠ none := by
  intro dropped
  simp [Tick.counts, Tick.isOk, Tick.isFailed, dropped] at counts

/-- A stop has come before the next tick. -/
theorem Progress.idle (progress : Progress interval stopAt tick start rounds ticks deadline begun) (last : Told σ)
    (inTime : start.now ≤ stopAt) (idles : Stage.Continues stopAt begun after) (stopped : after.stopped = true)
    (within : after.now ≤ max deadline begun.now) (early : begun.stopped = false → begun.now < deadline) :
    Report interval stopAt tick start (rounds ++ [last]) ticks after where
  ran := Or.inr (List.dropLast_concat.symm ▸ progress.ran)
  timetable := ⟨deadline, begun.now, progress.timetable, fun _ => ⟨stopped, within⟩⟩
  first running none := by
    subst none
    have early := early ((progress.first rfl).trans running)
    obtain ⟨due, free⟩ := progress.timetable.of_nil
    omega
  timely := progress.timetable.timely
  ended tick member := Nat.le_trans (progress.timetable.apart_next tick member).1 idles.now
  inTime := idles.inTime (progress.inTime inTime)
  counted tick member := progress.counted tick (List.dropLast_subset _ member)
  dropped tick member dropped := absurd dropped (outcome_of_counts (progress.counted tick member))
  records := by simpa using progress.records.append idles.records

/-- The last tick was dropped, or was cancelled itself. -/
theorem Progress.cut {one : Tick} {last : Told σ}
    (progress : Progress interval stopAt tick start rounds ticks deadline begun) (inTime : start.now ≤ stopAt)
    (ended : Ticks stopAt deadline begun one after) (ran : one.RanIn tick last) (uncounted : one.counts = false) :
    Report interval stopAt tick start (rounds ++ [last]) (ticks ++ [one]) after where
  ran := Or.inl (List.rel_append progress.ran (.cons ran .nil))
  timetable := by
    refine ⟨_, _, ended.timetable progress.timetable, fun counted => ?_⟩
    exact nomatch uncounted.symm.trans (counted one (List.mem_append_right _ (List.mem_singleton_self one)))
  first _ none := nomatch (List.append_eq_nil_iff.mp none).2
  timely := (ended.timetable progress.timetable).timely
  ended tick member := ((ended.timetable progress.timetable).apart_next tick member).1
  inTime := ended.inTime (progress.inTime inTime)
  counted := by simpa using progress.counted
  dropped := by
    refine List.forall_mem_append.mpr ⟨fun tick member dropped => ?_, ?_⟩
    · exact absurd dropped (outcome_of_counts (progress.counted tick member))
    · exact List.forall_mem_singleton.mpr fun dropped => ⟨ended.ends, ended.dropped dropped⟩
  records := progress.records.append ended.records

variable [MarkerStore (StateM κ)]

theorem finishes (spares : ∀ kept, Asks (fun request => request.sparesTicks = true) (tick kept))
    (inTime : begun.now ≤ stopAt) (state : State σ) :
    Finishes (Law.paused stopAt) (round interval tick) (.ok ()) (round interval tick state) begun := by
  -- Each tick moves the deadline on, and none that is due after the stop is begun.
  obtain ⟨left, bound⟩ : ∃ left, stopAt + 1 ≤ state.deadline + left := ⟨stopAt + 1, by omega⟩
  induction left using Nat.strongRecOn generalizing state begun with
  | ind left ih =>
    have answered := Stage.answers_of_givesWay (round_poised interval tick state).givesWay inTime
    refine .of_runs answered fun {_ result after} ran => ?_
    rcases round_ends spares ran with ⟨rfl, _⟩ | ⟨one, ticks, _, ⟨rfl, _⟩ | ⟨kept, rfl, _⟩⟩
    · exact .finished
    · exact .finished
    · have next := (period_le_nextDeadline interval state.deadline one.begins).1
      have long : 0 < period interval := Nat.lt_of_lt_of_le (by decide) (Nat.le_max_right interval shortest)
      have begins := ticks.begins
      have onward := ticks.onward
      have ends := ticks.ends
      have within := ticks.inTime inTime
      exact .again (ih (left - 1) (by omega) within _ (by simp only; omega))

/-- A tick is begun only where no stop was requested. What is left of the loop waits for nothing that does not give way
to a stop, and then it is over. -/
structure HeedsStop (left : Procedure (Round (State σ))) (stage : Stage κ) : Prop where
  unstopped : .prompt (.notice .tickBegun) ∈ left.pending → stage.stopped = false
  givesWay : left.GivesWay (.finished (.ok ())) Round.Orderly

theorem asks_ticked (deadline noticed : Nat) (ended : Option (Outcome Unit × σ)) :
    Asks (· ≠ .prompt (.notice .tickBegun)) (ticked interval deadline noticed ended) := by
  rcases ended with _ | ⟨outcome, kept⟩
  · exact .done
  refine .ask (by simp) fun _ => ?_
  rcases outcome with failure | _
  · rw [counted]
    split
    next => exact .done
    next => exact .ask (by simp) fun _ => .done
  · exact .ask (by simp) fun _ => .done

/-- Where it is asked to begin a tick, no stop was requested. -/
def Unhurried (request : Request) (stage : Stage κ) : Prop :=
  request = .prompt (.notice .tickBegun) → stage.stopped = false

theorem round_unhurried (spares : ∀ kept, Asks (fun request => request.sparesTicks = true) (tick kept))
    (state : State σ) (begun : Stage κ) :
    Program.Holds (Law.paused stopAt) Unhurried (fun _ _ => True) (round interval tick state) begun := by
  have other : ∀ request : Request, request.sparesTicks = true → request ≠ .prompt (.notice .tickBegun) := by
    rintro _ spares rfl
    cases spares
  have ticks : ∀ noticed (stage : Stage κ), Program.Holds (Law.paused stopAt) Unhurried (fun _ _ => True)
      ((tick state.kept).interruptible >>= ticked interval state.deadline noticed) stage := by
    intro noticed stage
    have asks := ((spares state.kept).interruptible fun _ _ => rfl).imp other
    exact (asks.bind (asks_ticked state.deadline noticed)).holds.mono (fun _ _ may same => absurd same may)
      fun _ _ _ => trivial
  rw [round_run]
  refine ⟨nofun, fun stop looked _ => ?_⟩
  cases stop with
  | true => trivial
  | false =>
    refine ⟨nofun, fun due entered _ => ?_⟩
    rcases due with _ | ⟨⟩
    · trivial
    refine ⟨nofun, fun noticed told _ => ⟨nofun, fun stop looked answered => ?_⟩⟩
    cases stop with
    | true => trivial
    | false =>
      obtain ⟨unstopped, rfl⟩ := Prod.mk.inj answered
      exact ⟨fun _ => unstopped, fun _ _ _ => ticks noticed _⟩

theorem heedsStop (spares : ∀ kept, Asks (fun request => request.sparesTicks = true) (tick kept))
    {trace : List (Program.Event Request.Reply)} {left : Procedure (Round (State σ))}
    (steps : Program.Steps (Law.paused stopAt) (round interval tick state) begun trace left after) :
    HeedsStop left after where
  unstopped pending := ((round_unhurried spares state begun).steps steps).pending _ pending rfl
  givesWay := (round_poised interval tick state).givesWay.steps steps

theorem progress_of_rounds (spares : ∀ kept, Asks (fun request => request.sparesTicks = true) (tick kept)) {kept : σ}
    (laps : Rounds (Law.paused stopAt) (round interval tick) ⟨start.now, kept⟩ start rounds state begun) :
    ∃ ticks, Progress interval stopAt tick start rounds ticks state.deadline begun := by
  generalize same : State.mk start.now kept = first at laps
  induction laps with
  | start =>
    subst same
    exact ⟨[], .nil, .start, ⟨(List.append_nil _).symm, rfl, rfl⟩, nofun, id, fun _ => rfl⟩
  | again more ran ih =>
    obtain ⟨ticks, progress⟩ := ih same
    rcases round_ends spares ran with ⟨ends, _⟩ | ⟨one, ended, within, ⟨ends, _⟩ | ⟨kept, again, counts⟩⟩
    · cases ends
    · cases ends
    · cases again
      refine ⟨ticks ++ [one], List.rel_append progress.ran (.cons within .nil), ended.timetable progress.timetable,
        progress.records.append ended.records, ?_, ended.inTime ∘ progress.inTime,
        fun none => nomatch (List.append_eq_nil_iff.mp none).2⟩
      exact List.forall_mem_append.mpr ⟨progress.counted, List.forall_mem_singleton.mpr counts⟩

/-- Whatever the ticks do, however long they take and whenever the stop comes. Only to announce and to count them is left
to the loop. -/
theorem keeps_time (interval : Nat) (spares : ∀ kept, Asks (fun request => request.sparesTicks = true) (tick kept))
    (inTime : start.now ≤ stopAt) (kept : σ) :
    Finishes (Law.paused stopAt) (round interval tick) (.ok ()) (round interval tick ⟨start.now, kept⟩) start ∧
      ∀ {rounds state begun},
        Rounds (Law.paused stopAt) (round interval tick) ⟨start.now, kept⟩ start rounds state begun →
        (∀ {trace left after}, Program.Steps (Law.paused stopAt) (round interval tick state) begun trace left after →
          HeedsStop left after) ∧
        ∀ {trace outcome after}, Program.Runs (Law.paused stopAt) (round interval tick state) begun trace
          (.finished outcome) after → outcome = .ok () ∧
            ∃ ticks, Report interval stopAt tick start (rounds ++ [(state, trace)]) ticks after := by
  refine ⟨finishes spares inTime _, fun laps => ⟨fun steps => heedsStop spares steps, fun ran => ?_⟩⟩
  obtain ⟨ticks, progress⟩ := progress_of_rounds spares laps
  rcases round_ends spares ran with
    ⟨same, idles, stopped, within, early⟩ | ⟨one, ended, within, ⟨same, uncounted⟩ | ⟨_, ends, _⟩⟩
  · exact ⟨Round.finished.inj same, ticks, progress.idle _ inTime idles stopped within early⟩
  · exact ⟨Round.finished.inj same, ticks ++ [one], progress.cut inTime ended within uncounted⟩
  · cases ends

/-- The first tick takes 130 ms, and the stop at 200 ms comes while the second is under way. -/
theorem slow_tick_before_stop : ∃ (rounds : List (Told Unit)) (trace : List (Program.Event Request.Reply))
    (begun after : Stage Script),
    Finishes (Law.paused 200) (round 100 Drill.tick) (.ok ()) (round 100 Drill.tick ⟨0, ()⟩) (Drill.stage []) ∧
      Rounds (Law.paused 200) (round 100 Drill.tick) ⟨0, ()⟩ (Drill.stage []) rounds ⟨100, ()⟩ begun ∧
      Program.Runs (Law.paused 200) (round 100 Drill.tick ⟨100, ()⟩) begun trace (.finished (.ok ())) after ∧
      after.tickNotices = [(0, .tickBegun), (130, .tickEnded), (130, .tickBegun)] ∧ after.metrics.get .ticksOk = 1 ∧
      ∃ ticks, Report 100 200 Drill.tick (Drill.stage []) (rounds ++ [(⟨100, ()⟩, trace)]) ticks after := by
  let start : Stage Script := Drill.stage []
  let working : Stage Script := (start.answer (.notice .tickBegun)).2
  let rested : Stage Script := { working with now := 130 }
  let begun : Stage Script := completed rested (.ok ())
  let ticking : Stage Script := (begun.answer (.notice .tickBegun)).2
  let after : Stage Script := { ticking with now := 200, stopped := true }
  have tick_run : (Drill.tick ()).interruptible = .ask (.awaitOrStop (.call .prune)) fun reply =>
      .done (reply.map fun outcome => (outcome, ())) := by
    refine (Procedure.interruptible_await (.call .prune) _).trans (congrArg (Program.ask _) (funext fun reply => ?_))
    cases reply <;> rfl
  have due : Law.paused 200 (.awaitOrStop (.sleepUntil 0)) start (some ()) start :=
    Stage.hears_at (Nat.le_refl 0) (by decide) nofun (by rintro _ ⟨⟩; rfl)
  have pruned : Law.paused 200 (.awaitOrStop (.call .prune)) working (some (.ok ())) rested :=
    Stage.hears_at (by decide) (by decide) nofun nofun
  have overdue : Law.paused 200 (.awaitOrStop (.sleepUntil 100)) begun (some ()) begun :=
    Stage.hears_at (Nat.le_refl 130) (by decide) nofun (by rintro _ ⟨⟩; rfl)
  have dropped : Law.paused 200 (.awaitOrStop (.call .prune)) ticking none after :=
    Stage.givesUp_at (by decide) (by decide) nofun nofun fun _ => rfl
  have answers : ∀ asked (stage : Stage Script),
      Law.paused 200 (.prompt asked) stage (stage.answer asked).1 (stage.answer asked).2 := fun _ _ => rfl
  obtain ⟨trace, completes⟩ : ∃ trace, Program.Runs (Law.paused 200) (round 100 Drill.tick ⟨0, ()⟩) start trace
      (.again ⟨100, ()⟩) begun := by
    rw [round_run, tick_run]
    exact ⟨_, .ask (answers _ start) <| .ask due <| .ask (answers _ start) <| .ask (answers _ start) <|
      .ask (answers _ start) <| .ask pruned <| .ask (answers _ rested) <| .ask (answers _ _) .refl⟩
  obtain ⟨last, drops⟩ : ∃ last, Program.Runs (Law.paused 200) (round 100 Drill.tick ⟨100, ()⟩) begun last
      (.finished (.ok ())) after := by
    rw [round_run, tick_run]
    exact ⟨_, .ask (answers _ begun) <| .ask overdue <| .ask (answers _ begun) <| .ask (answers _ begun) <|
      .ask (answers _ begun) <| .ask dropped .refl⟩
  have spares : ∀ kept, Asks (fun request => request.sparesTicks = true) (Drill.tick kept) :=
    fun _ => .ask rfl fun _ => .done
  have inTime : start.now ≤ 200 := Nat.zero_le 200
  have laps := Rounds.again .start completes
  obtain ⟨finishes, reports⟩ := keeps_time 100 spares inTime ()
  exact ⟨_, last, begun, after, finishes, laps, drops, rfl, rfl, ((reports laps).2 drops).2⟩

/-- The tasks of a drill are played to the same end. -/
example : (Drill.loop 100 [.takes 130 (.ok ""), .hangs] (some 200)).begun = [0, 130] := by cbv

end Loop

end QuorumWarden
