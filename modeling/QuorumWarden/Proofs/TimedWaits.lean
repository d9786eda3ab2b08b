import QuorumWarden.Proofs.GivingWay

/-! Waits on a timer that give way to a stop. Among them a run goes on from one time to the next, until the stop comes
before the end of one. -/

namespace QuorumWarden

/-- The procedure once the timer has come so far. A stop before that leaves nothing of it but `last`. -/
def Procedure.awaiting {α : Type} (time : Nat) (last : α) (onward : Procedure α) : Procedure α :=
  .ask (.awaitOrStop (.sleepUntil time)) fun
    | none => .done last
    | some () => onward

open Procedure (awaiting)

theorem Action.pause_bind_run {α : Type} (millis : Nat) (next : Action α) :
    (Action.pause millis >>= fun _ => next).run = .ask (.prompt .stopRequested) fun stop =>
      if stop then .done (.error .cancelled)
      else .ask (.prompt .timer) fun now => awaiting (now + Timer.span millis) (.error .cancelled) next.run := by
  have slept : (ExceptT.lift (Action.sleep millis) : Action Unit).run = .ask (.prompt .timer) fun now =>
      .ask (.await (.sleepUntil (now + Timer.span millis))) fun done => .done (.ok done) := rfl
  have begun : (Action.pause millis >>= fun _ => next).run =
      (Action.guarded (ExceptT.lift (Action.sleep millis))).run >>= ExceptT.bindCont fun _ => next := rfl
  rw [begun, Action.guarded_run, Procedure.unlessStopped, slept]
  refine congrArg (Program.ask _) (funext fun stop => ?_)
  cases stop with
  | true => rfl
  | false =>
    simp only [Bool.false_eq_true, if_false, Procedure.interruptible]
    refine congrArg (Program.ask _) (funext fun now => congrArg (Program.ask _) (funext fun reply => ?_))
    cases reply <;> rfl

namespace Stage

variable {κ α : Type} [World κ] [MarkerStore (StateM κ)] {stage : Stage κ} {procedure : Procedure α}

theorem resume_of_running (running : stage.stopped = false) (procedure : Procedure α) :
    stage.resume procedure = stage.poll procedure := by
  unfold resume
  split
  next => rw [if_neg (by simp [running])]
  next => rfl

section

variable {stopAt : Option Nat} {waits : Nat}

/-- Only what a turn makes of a procedure counts. -/
theorem runWaits_congr {other : Stage κ} {another : Procedure α} (same : stage.resume procedure = other.resume another)
    (left : 0 < waits) : runWaits stopAt waits stage procedure = runWaits stopAt waits other another := by
  obtain ⟨fewer, rfl⟩ := Nat.exists_eq_add_one_of_ne_zero (Nat.ne_of_gt left)
  rw [runWaits, runWaits, same]

theorem runWaits_of_resume {after : Stage κ} {value : α} (ended : stage.resume procedure = (.done value, after))
    (left : 0 < waits) : runWaits stopAt waits stage procedure = (some value, after) := by
  obtain ⟨fewer, rfl⟩ := Nat.exists_eq_add_one_of_ne_zero (Nat.ne_of_gt left)
  rw [runWaits, ended]
  rfl

/-- Whether what is due then comes before the stop. At the same instant it does, but at the start nothing does. -/
def inTime (stopAt : Option Nat) (time : Nat) : Bool := stopAt.all fun stop => 0 < stop && time ≤ stop

theorem inTime_mono {early late : Nat} (before : early ≤ late) (inside : inTime stopAt late = true) :
    inTime stopAt early = true := by
  cases stopAt with
  | none => rfl
  | some stop =>
    simp only [inTime, Option.all_some, Bool.and_eq_true, decide_eq_true_eq] at inside ⊢
    omega

theorem outOfTime_mono {early late : Nat} (before : early ≤ late) (outside : inTime stopAt early = false) :
    inTime stopAt late = false :=
  Bool.eq_false_iff.mpr fun inside => Bool.false_ne_true (outside.symm.trans (inTime_mono before inside))

variable {time : Nat} {last : α} {onward : Procedure α}

theorem poll_awaiting (running : stage.stopped = false) : stage.poll (awaiting time last onward) =
    if time ≤ stage.now then stage.poll onward else (awaiting time last onward, stage) := by
  rw [awaiting, poll, attempt]
  by_cases due : time ≤ stage.now
  · rw [if_pos due, if_pos due]
  · rw [if_neg due, if_neg due]
    simp only [running, Bool.false_eq_true, if_false, Option.map_id_fun, id]

private theorem runWaits_early (running : stage.stopped = false) (early : stage.now < time) :
    runWaits stopAt (waits + 1) stage (awaiting time last onward) =
      match stopAt with
      | none => runWaits none waits (stage.moveTo time) (awaiting time last onward)
      | some stop =>
        if stop < time then runWaits (some stop) waits (stage.moveTo stop).requestStop (awaiting time last onward)
        else runWaits (some stop) waits (stage.moveTo time) (awaiting time last onward) := by
  rw [runWaits, resume_of_running running, poll_awaiting running, if_neg (Nat.not_le_of_lt early)]
  simp only [awaiting, value?, Procedure.wakesAt, wakesAt, running, Bool.false_eq_true, if_false]
  cases stopAt <;> rfl

/-- A wait that ends in time takes one turn, or none. -/
theorem runWaits_awaiting (running : stage.stopped = false) (enough : 2 ≤ waits) (inside : inTime stopAt time = true) :
    ∃ left, waits ≤ left + 1 ∧ runWaits stopAt waits stage (awaiting time last onward) =
      runWaits stopAt left (stage.moveTo time) onward := by
  obtain ⟨fewer, rfl⟩ := Nat.exists_eq_add_of_le' enough
  have moved : (stage.moveTo time).resume (awaiting time last onward) = (stage.moveTo time).resume onward := by
    have still : (stage.moveTo time).stopped = false := running
    rw [resume_of_running still, resume_of_running still, poll_awaiting still]
    exact if_pos (Nat.le_max_right _ _)
  by_cases due : time ≤ stage.now
  · have same : stage.moveTo time = stage := by
      rw [moveTo, Nat.max_eq_left due]
    rw [same] at moved ⊢
    exact ⟨fewer + 2, by omega, runWaits_congr moved (by omega)⟩
  · refine ⟨fewer + 1, by omega, ?_⟩
    rw [← runWaits_congr moved (by omega), runWaits_early running (Nat.lt_of_not_le due)]
    cases stopAt with
    | none => rfl
    | some stop =>
      simp only [inTime, Option.all_some, Bool.and_eq_true, decide_eq_true_eq] at inside
      exact if_neg (by omega)

/-- A stop before the end of a wait is the end of all. -/
theorem runWaits_cut (running : stage.stopped = false) (begun : inTime stopAt stage.now = true) (enough : 2 ≤ waits)
    (outside : inTime stopAt time = false) : ∃ stop, runWaits stopAt waits stage (awaiting time last onward) =
      (some last, (stage.moveTo stop).requestStop) := by
  obtain ⟨fewer, rfl⟩ := Nat.exists_eq_add_of_le' enough
  cases stopAt with
  | none => cases outside
  | some stop =>
    simp only [inTime, Option.all_some, Bool.and_eq_true, decide_eq_true_eq, Bool.and_eq_false_iff,
      decide_eq_false_iff_not] at begun outside
    have ended : (stage.moveTo stop).requestStop.resume (awaiting time last onward) =
        (.done last, (stage.moveTo stop).requestStop) := resume_stopped rfl rfl
    refine ⟨stop, ?_⟩
    rw [runWaits_early running (by omega)]
    change (if stop < time then _ else _) = _
    rw [if_pos (by omega)]
    exact runWaits_of_resume ended (by omega)

end

/-- What turns, time and stops make of a procedure, in whatever order they come. -/
inductive Unfolds (start : Stage κ) (procedure : Procedure α) : Stage κ → Procedure α → Prop where
  | begun : Unfolds start procedure start procedure
  | turned {stage rest} (so : Unfolds start procedure stage rest) :
      Unfolds start procedure (stage.resume rest).2 (stage.resume rest).1
  | passed {stage rest} (so : Unfolds start procedure stage rest) (time : Nat) :
      Unfolds start procedure (stage.moveTo time) rest
  | stopped {stage rest} (so : Unfolds start procedure stage rest) : Unfolds start procedure stage.requestStop rest

variable {start : Stage κ} {rest : Procedure α} {last : α} {ends : α → Prop}

theorem Unfolds.poised (unfolds : Unfolds start procedure stage rest) (poised : procedure.Poised last ends) :
    (∃ value, rest = .done value) ∨ rest.Poised last ends := by
  induction unfolds with
  | begun => exact Or.inr poised
  | @turned stage rest so ih =>
    rcases ih with ⟨value, rfl⟩ | poised
    · exact Or.inl ⟨value, rfl⟩
    · have turned : (∃ value, (stage.resume rest).1 = .done value ∧ ends value) ∨ _ := resume_poised poised
      exact turned.imp_left fun ⟨value, ended, _⟩ => ⟨value, ended⟩
  | passed so time ih => exact ih
  | stopped so ih => exact ih

/-- After a stop there is one more turn, in which nothing is done. -/
theorem Unfolds.resume_stopped (unfolds : Unfolds start procedure stage rest) (poised : procedure.Poised last ends)
    (stopped : stage.stopped = true) : (∃ value, rest = .done value) ∨ stage.resume rest = (.done last, stage) :=
  (unfolds.poised poised).imp_right fun poised => Stage.resume_stopped stopped poised.endsAtStop

end Stage

end QuorumWarden
