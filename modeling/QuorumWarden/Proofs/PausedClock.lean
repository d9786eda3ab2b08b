import QuorumWarden.Proofs.GivingWay
import QuorumWarden.Proofs.TaskRuns
import QuorumWarden.Proofs.Timetable

/-! A clock that is paused while anything runs, with a stop at a given time. Time passes in waits alone: a wait on the
timer ends at its time exactly, any other one when it ends, and at the stop each of them gives way. -/

namespace QuorumWarden

def Notice.isOfTick : Notice → Bool
  | .tickBegun | .tickEnded => true
  | .slotRetains _ _ _ => false

/-- The request leaves the ticks of a loop to the loop: it neither announces nor counts one. -/
def Request.sparesTicks : Request → Bool
  | .prompt (.notice said) => !said.isOfTick
  | .prompt (.count counter) => counter != .ticksOk && counter != .ticksFailed
  | _ => true

namespace Loop.Tick

/-- What is noticed of a tick. -/
def notices (tick : Tick) : List (Nat × Notice) :=
  (tick.begins, .tickBegun) :: if tick.outcome.isSome then [(tick.ends, .tickEnded)] else []

/-- The tick was completed, and with success. -/
def isOk (tick : Tick) : Bool :=
  match tick.outcome with
  | some (.ok ()) => true
  | _ => false

/-- The tick was completed, and with a failure that is no cancellation. -/
def isFailed (tick : Tick) : Bool :=
  match tick.outcome with
  | some (.error failure) => !failure.isCancelled
  | _ => false

/-- The loop counts the tick and goes on after it. -/
def counts (tick : Tick) : Bool := tick.isOk || tick.isFailed

end Loop.Tick

namespace Stage

open Loop (Tick)

variable {κ : Type} {before between after : Stage κ} {ticks further : List Tick}

/-- What was noticed of ticks, earliest first. -/
def tickNotices (stage : Stage κ) : List (Nat × Notice) := (stage.notices.filter (·.2.isOfTick)).reverse

/-- What was written down in the meantime is of these ticks. -/
structure Records (before : Stage κ) (ticks : List Tick) (after : Stage κ) : Prop where
  noticed : after.tickNotices = before.tickNotices ++ ticks.flatMap Tick.notices
  ok : after.metrics.get .ticksOk = before.metrics.get .ticksOk + ticks.countP Tick.isOk
  failed : after.metrics.get .ticksFailed = before.metrics.get .ticksFailed + ticks.countP Tick.isFailed

theorem Records.append (one : Records before ticks between) (two : Records between further after) :
    Records before (ticks ++ further) after := by
  refine ⟨?_, ?_, ?_⟩
  · rw [two.noticed, one.noticed, List.flatMap_append, List.append_assoc]
  · rw [two.ok, one.ok, List.countP_append, Nat.add_assoc]
  · rw [two.failed, one.failed, List.countP_append, Nat.add_assoc]

/-- The stage goes on with nothing to be written down of ticks. After a stop no time passes. -/
structure Continues (stopAt : Nat) (before after : Stage κ) : Prop where
  records : Records before [] after
  now : before.now ≤ after.now
  inTime : before.now ≤ stopAt → after.now ≤ stopAt
  frozen : before.stopped = true → after.stopped = true ∧ after.now = before.now

variable {stopAt : Nat}

theorem Continues.refl (stopAt : Nat) (stage : Stage κ) : Continues stopAt stage stage :=
  ⟨⟨(List.append_nil _).symm, rfl, rfl⟩, Nat.le_refl _, id, fun stopped => ⟨stopped, rfl⟩⟩

theorem Continues.trans (one : Continues stopAt before between) (two : Continues stopAt between after) :
    Continues stopAt before after where
  records := one.records.append two.records
  now := Nat.le_trans one.now two.now
  inTime := two.inTime ∘ one.inTime
  frozen stopped := by
    obtain ⟨still, same⟩ := one.frozen stopped
    obtain ⟨last, equal⟩ := two.frozen still
    exact ⟨last, equal.trans same⟩

end Stage

namespace Stage

variable {κ : Type}

/-- The wait is answered, one on the timer at its time. Once a stop was requested only what is answered at once is. -/
structure Hears (stopAt : Nat) (wait : Wait) (before after : Stage κ) : Prop where
  continues : Continues stopAt before after
  onTime : ∀ time, wait = .sleepUntil time → after.now = max before.now time ∧ after.stopped = before.stopped

/-- The wait gives way to the stop, one on the timer only if its time has not come. -/
structure GivesUp (stopAt : Nat) (wait : Wait) (before after : Stage κ) : Prop where
  continues : Continues stopAt before after
  stopped : after.stopped = true
  early : ∀ time, wait = .sleepUntil time → before.now < time ∧ after.now ≤ time
  atStop : before.stopped = false → after.now = stopAt

variable {stopAt time : Nat} {wait : Wait} {stage : Stage κ}

/-- The stage when a wait is over. -/
theorem hears_at (later : stage.now ≤ time) (inTime : time ≤ stopAt) (frozen : stage.stopped = true → time = stage.now)
    (onTime : ∀ alarm, wait = .sleepUntil alarm → time = max stage.now alarm) :
    stage.Hears stopAt wait { stage with now := time } where
  continues := ⟨⟨(List.append_nil _).symm, rfl, rfl⟩, later, fun _ => inTime, fun stopped => ⟨stopped, frozen stopped⟩⟩
  onTime alarm same := ⟨onTime alarm same, rfl⟩

/-- The stage when a wait has given way to the stop. -/
theorem givesUp_at (later : stage.now ≤ time) (inTime : time ≤ stopAt)
    (frozen : stage.stopped = true → time = stage.now)
    (early : ∀ alarm, wait = .sleepUntil alarm → time < alarm) (atStop : stage.stopped = false → time = stopAt) :
    stage.GivesUp stopAt wait { stage with now := time, stopped := true } where
  continues := ⟨⟨(List.append_nil _).symm, rfl, rfl⟩, later, fun _ => inTime, fun stopped => ⟨rfl, frozen stopped⟩⟩
  stopped := rfl
  early alarm same := ⟨Nat.lt_of_le_of_lt later (early alarm same), Nat.le_of_lt (early alarm same)⟩
  atStop := atStop

end Stage

/-- What does not give way to a stop is not waited for. -/
def Law.paused {κ : Type} [MarkerStore (StateM κ)] (stopAt : Nat) : Law Request Request.Reply (Stage κ)
  | .prompt asked, before, reply, after => before.answer asked = (reply, after)
  | .await _, _, _, _ => False
  | .awaitOrStop wait, before, some _, after => before.Hears stopAt wait after
  | .awaitOrStop wait, before, none, after => before.GivesUp stopAt wait after

namespace Stage

open Procedure (Asks)

variable {κ : Type} [MarkerStore (StateM κ)] {before after : Stage κ} {stopAt : Nat}

theorem runs_prompt {α : Type} {asked : Prompt} {next : asked.Reply → Procedure α}
    {trace : List (Program.Event Request.Reply)} {value : α}
    (ran : Program.Runs (Law.paused stopAt) (.ask (.prompt asked) next) before trace value after) :
    ∃ rest, trace = ⟨.prompt asked, (before.answer asked).1⟩ :: rest ∧
      Program.Runs (Law.paused stopAt) (next (before.answer asked).1) (before.answer asked).2 rest value after := by
  cases ran with
  | @ask _ _ _ reply between rest _ _ answered more =>
    obtain ⟨rfl, rfl⟩ := Prod.mk.inj (answered : before.answer asked = (reply, between)).symm
    exact ⟨rest, rfl, more⟩

/-- No time passes beyond the stop. -/
theorem inTime_of_paused {request : Request} {reply : request.Reply}
    (answered : Law.paused stopAt request before reply after) (inTime : before.now ≤ stopAt) : after.now ≤ stopAt := by
  cases request with
  | prompt asked =>
    have same : before.answer asked = (reply, after) := answered
    obtain rfl : (before.answer asked).2 = after := congrArg Prod.snd same
    cases asked <;> exact inTime
  | await wait => exact False.elim answered
  | awaitOrStop wait =>
    cases reply with
    | none => exact (GivesUp.continues answered).inTime inTime
    | some heard => exact (Hears.continues answered).inTime inTime

theorem answers_awaitOrStop {stage : Stage κ} (inTime : stage.now ≤ stopAt) (wait : Wait) :
    (Law.paused stopAt).Answers (.awaitOrStop wait) stage := by
  -- The wait is given up then, unless it is one on the timer whose time has come by then.
  obtain ⟨time, later, within, frozen, atStop⟩ : ∃ time, stage.now ≤ time ∧ time ≤ stopAt ∧
      (stage.stopped = true → time = stage.now) ∧ (stage.stopped = false → time = stopAt) := by
    cases stage.stopped with
    | true => exact ⟨stage.now, Nat.le_refl _, inTime, fun _ => rfl, nofun⟩
    | false => exact ⟨stopAt, inTime, Nat.le_refl _, nofun, fun _ => rfl⟩
  by_cases due : ∃ alarm, wait = .sleepUntil alarm ∧ alarm ≤ time
  · obtain ⟨alarm, rfl, due⟩ := due
    refine ⟨some (), _, hears_at (Nat.le_max_left _ alarm) (by omega) (fun stopped => ?_) fun other same => ?_⟩
    · have same := frozen stopped
      omega
    · cases same
      rfl
  · refine ⟨none, _, givesUp_at later within frozen (fun alarm same => ?_) atStop⟩
    exact Nat.lt_of_not_le fun early => due ⟨alarm, same, early⟩

theorem answers_of_givesWay {α : Type} {last : α} {ends : α → Prop} {procedure : Procedure α} {stage : Stage κ}
    (givesWay : procedure.GivesWay last ends) (inTime : stage.now ≤ stopAt) :
    Program.Holds (Law.paused stopAt) (Law.Answers (Law.paused stopAt)) (fun _ _ => True) procedure stage := by
  induction procedure generalizing stage with
  | done value => trivial
  | ask request next ih =>
    cases request with
    | prompt asked =>
      exact ⟨⟨_, _, rfl⟩, fun reply _ answered => ih reply (givesWay reply) (inTime_of_paused answered inTime)⟩
    | await wait => exact givesWay.elim
    | awaitOrStop wait =>
      exact ⟨answers_awaitOrStop inTime wait,
        fun reply _ answered => ih reply (givesWay.2 reply) (inTime_of_paused answered inTime)⟩

theorem tickNotices_notice (stage : Stage κ) {said : Notice} (ofTick : said.isOfTick = true) :
    (stage.answer (.notice said)).2.tickNotices = stage.tickNotices ++ [(stage.now, said)] := by
  simp [answer, tickNotices, ofTick]

theorem continues_answer (stage : Stage κ) {asked : Prompt} (spares : (Request.prompt asked).sparesTicks = true) :
    Continues stopAt stage (stage.answer asked).2 := by
  cases asked with
  | count counter =>
    obtain ⟨notOk, notFailed⟩ : counter ≠ .ticksOk ∧ counter ≠ .ticksFailed := by
      simpa [Request.sparesTicks] using spares
    refine ⟨⟨(List.append_nil _).symm, ?_, ?_⟩, Nat.le_refl _, id, fun stopped => ⟨stopped, rfl⟩⟩
    · simp [answer, notOk.symm]
    · simp [answer, notFailed.symm]
  | notice said =>
    have other : said.isOfTick = false := by simpa [Request.sparesTicks] using spares
    refine ⟨⟨?_, rfl, rfl⟩, Nat.le_refl _, id, fun stopped => ⟨stopped, rfl⟩⟩
    simp [answer, tickNotices, other]
  | requestStop => exact ⟨⟨(List.append_nil _).symm, rfl, rfl⟩, Nat.le_refl _, id, fun _ => ⟨rfl, rfl⟩⟩
  | _ => exact ⟨⟨(List.append_nil _).symm, rfl, rfl⟩, Nat.le_refl _, id, fun stopped => ⟨stopped, rfl⟩⟩

theorem continues_of_paused {request : Request} {reply : request.Reply} (spares : request.sparesTicks = true)
    (answered : Law.paused stopAt request before reply after) : Continues stopAt before after := by
  cases request with
  | prompt asked =>
    have same : before.answer asked = (reply, after) := answered
    obtain rfl : (before.answer asked).2 = after := congrArg Prod.snd same
    exact continues_answer before spares
  | await wait => exact False.elim answered
  | awaitOrStop wait =>
    cases reply with
    | none => exact GivesUp.continues answered
    | some heard => exact Hears.continues answered

theorem continues_of_steps {α : Type} {procedure rest : Procedure α} {trace : List (Program.Event Request.Reply)}
    (spares : Asks (fun request => request.sparesTicks = true) procedure)
    (steps : Program.Steps (Law.paused stopAt) procedure before trace rest after) : Continues stopAt before after := by
  induction steps with
  | refl => exact .refl _ _
  | ask answered _ ih => exact (continues_of_paused spares.1 answered).trans (ih (spares.2 _ () trivial))

/-- What is given up was given up at a stop. -/
theorem stopped_of_interrupted {α : Type} {procedure : Procedure α} {trace : List (Program.Event Request.Reply)}
    (ran : Program.Runs (Law.paused stopAt) procedure.interruptible before trace none after) :
    after.stopped = true := by
  induction procedure generalizing before trace with
  | done value => cases ran
  | ask request next ih =>
    cases request with
    | prompt asked =>
      cases ran with
      | ask answered more => exact ih _ more
    | await wait | awaitOrStop wait =>
      rw [Procedure.interruptible] at ran
      cases ran with
      | @ask _ _ _ reply _ _ _ _ answered more =>
        cases reply with
        | none =>
          obtain ⟨_, _, rfl⟩ := more.of_done
          exact GivesUp.stopped answered
        | some heard => exact ih _ more

end Stage

end QuorumWarden
