import QuorumWarden.Proofs.Companies

/-! Waiting for the tasks of a group. A turn of the join takes in all tasks that have ended so far and asks for a stop;
until it is joined, a group is left to itself. -/

namespace QuorumWarden

namespace Group

theorem joinAfter_run (tasks : Nat) (first : Option Failure) : (joinAfter (tasks + 1) first).run =
    .ask (.await .ending) fun ending =>
      .ask (.prompt .requestStop) fun _ => (joinAfter tasks (first.or (failure? ending))).run := rfl

/-- What the supervision has left to do while it waits for a shutdown. -/
def supervising (shutdownAt : Option Nat) (tasks : Nat) : Procedure (Outcome Unit) :=
  .ask (.awaitOrStop (shutdown shutdownAt)) fun came =>
    if came.isSome then .ask (.prompt .requestStop) fun _ => (join tasks).run else (join tasks).run

theorem unlessStopped_await (wait : Wait) : Procedure.unlessStopped (Procedure.await wait) =
    .ask (.prompt .stopRequested) fun stop => if stop then .done none else .ask (.awaitOrStop wait) .done := by
  refine congrArg (Program.ask _) (funext fun stop => ?_)
  cases stop with
  | true => rfl
  | false =>
    change Procedure.interruptible (.ask (.await wait) .done) = _
    rw [Procedure.interruptible]
    refine congrArg (Program.ask _) (funext fun reply => ?_)
    cases reply <;> rfl

theorem supervise_run (shutdownAt : Option Nat) (tasks : Nat) : (supervise shutdownAt tasks).run =
    .ask (.prompt .stopRequested) fun stop => if stop then (join tasks).run else supervising shutdownAt tasks := by
  unfold supervise
  rw [unlessStopped_await]
  refine congrArg (Program.ask _) (funext fun stop => ?_)
  cases stop with
  | true => rfl
  | false =>
    refine congrArg (Program.ask _) (funext fun came => ?_)
    cases came <;> rfl

end Group

namespace Stage

variable {κ : Type}

/-- The stage after so many more endings have been taken in. -/
def takeIn (stage : Stage κ) (heard : Nat) : Stage κ :=
  { stage with heeded := stage.heeded + heard, stopped := stage.stopped || decide (0 < heard) }

theorem takeIn_zero (stage : Stage κ) : stage.takeIn 0 = stage := by simp [takeIn]

variable [World κ] {stage : Stage κ}

theorem attempt_ending_of_none (waits : stage.endings[stage.heeded]? = none) :
    stage.attempt .ending = (.held .ending id, stage) := by
  simp only [attempt, waits]

theorem attempt_ending_of_some {ended : Nat × Ending} (next : stage.endings[stage.heeded]? = some ended) :
    stage.attempt .ending = (.ready ended.2, { stage with heeded := stage.heeded + 1 }) := by
  simp only [attempt, next]

variable [MarkerStore (StateM κ)]

theorem poll_joinAfter (tasks : Nat) (first : Option Failure) (stage : Stage κ) : ∃ heard,
    stage.poll (Group.joinAfter tasks first).run = ((Group.joinAfter (tasks - heard)
        (first.or (((stage.endings.drop stage.heeded).take heard).findSome? (Group.failure? ·.2)))).run,
      stage.takeIn heard) ∧
      heard ≤ tasks ∧ (heard = tasks ∨ stage.endings.length ≤ stage.heeded + heard) ∧
      (stage.heeded ≤ stage.endings.length → stage.heeded + heard ≤ stage.endings.length) := by
  induction tasks generalizing first stage with
  | zero =>
    refine ⟨0, ?_, Nat.le_refl 0, Or.inl rfl, id⟩
    rw [takeIn_zero]
    cases first <;> rfl
  | succ tasks ih =>
    rw [Group.joinAfter_run, poll]
    cases next : stage.endings[stage.heeded]? with
    | none =>
      refine ⟨0, ?_, Nat.zero_le _, Or.inr (List.getElem?_eq_none_iff.mp next), id⟩
      rw [attempt_ending_of_none next, takeIn_zero, List.take_zero, List.findSome?_nil, Option.or_none]
      rfl
    | some ended =>
      obtain ⟨inside, rfl⟩ := List.getElem?_eq_some_iff.mp next
      rw [attempt_ending_of_some next]
      let after : Stage κ := { stage with heeded := stage.heeded + 1, stopped := true }
      obtain ⟨heard, polled, few, all, within⟩ := ih (first.or (Group.failure? stage.endings[stage.heeded].2)) after
      have taken : after.takeIn heard = stage.takeIn (heard + 1) := by
        simp [after, takeIn, Nat.add_assoc, Nat.add_comm 1 heard]
      have told : (stage.endings.drop stage.heeded).take (heard + 1) =
          stage.endings[stage.heeded] :: (after.endings.drop after.heeded).take heard := by
        rw [List.drop_eq_getElem_cons inside, List.take_succ_cons]
      have blamed : (stage.endings[stage.heeded] :: (after.endings.drop after.heeded).take heard).findSome?
          (Group.failure? ·.2) = (Group.failure? stage.endings[stage.heeded].2).or
            (((after.endings.drop after.heeded).take heard).findSome? (Group.failure? ·.2)) := by
        rw [List.findSome?_cons]
        cases Group.failure? stage.endings[stage.heeded].2 <;> rfl
      refine ⟨heard + 1, ?_, Nat.succ_le_succ few, ?_, fun _ => ?_⟩
      · rw [Nat.add_sub_add_right, ← taken, told, blamed, ← Option.or_assoc]
        exact polled
      · rcases all with rfl | all
        · exact Or.inl rfl
        · have all : stage.endings.length ≤ stage.heeded + 1 + heard := all
          exact Or.inr (by omega)
      · have bounded : stage.heeded + 1 + heard ≤ stage.endings.length := within inside
        omega

theorem resume_joinAfter (tasks : Nat) (first : Option Failure) (stage : Stage κ) :
    stage.resume (Group.joinAfter tasks first).run = stage.poll (Group.joinAfter tasks first).run := by
  cases tasks with
  | zero => cases first <;> rfl
  | succ tasks => rfl

/-- A shutdown that has come begins the join at once; until then the supervision waits, and hears of nothing else. -/
theorem poll_supervising (shutdownAt : Option Nat) (tasks : Nat) (unstopped : stage.stopped = false) :
    (∃ time, shutdownAt = some time ∧ time ≤ stage.now) ∧
        stage.poll (Group.supervising shutdownAt tasks) = stage.requestStop.poll (Group.join tasks).run ∨
      stage.poll (Group.supervising shutdownAt tasks) = (Group.supervising shutdownAt tasks, stage) := by
  have held : stage.attempt (Group.shutdown shutdownAt) = (.held (Group.shutdown shutdownAt) id, stage) →
      stage.poll (Group.supervising shutdownAt tasks) = (Group.supervising shutdownAt tasks, stage) := by
    intro held
    rw [Group.supervising, poll, held]
    simp only [unstopped, Bool.false_eq_true, ↓reduceIte, Option.map_id, id]
  cases shutdownAt with
  | none => exact Or.inr (held rfl)
  | some time =>
    by_cases due : time ≤ stage.now
    · refine Or.inl ⟨⟨time, rfl, due⟩, ?_⟩
      rw [Group.supervising, Group.shutdown, poll, attempt, if_pos due]
      rfl
    · exact Or.inr (held (by rw [Group.shutdown, attempt, if_neg due]))

end Stage

namespace Company

variable {σ κ : Type} {company : Company σ κ} {first : Option Failure}

theorem awaited_of_unheeded {further : Nat} (joins : company.main = (Group.joinAfter (further + 1) first).run)
    (unheeded : company.crew.stage.heeded < company.crew.stage.endings.length) : company.Awaited := by
  rw [Group.joinAfter_run] at joins
  constructor
  · rw [joins]
    rfl
  · rw [joins]
    exact decide_eq_true unheeded

theorem unheeded_of_awaited {left : Nat} (joins : company.main = (Group.joinAfter left first).run)
    (awaited : company.Awaited) : 0 < left ∧ company.crew.stage.heeded < company.crew.stage.endings.length := by
  obtain ⟨unfinished, ready⟩ := awaited
  rw [joins] at unfinished ready
  cases left with
  | zero => cases first <;> cases unfinished
  | succ left => exact ⟨Nat.succ_pos left, of_decide_eq_true ready⟩

theorem attended_of_joining [World κ] [MarkerStore (StateM κ)] {tasks : Nat}
    (joins : company.main = (Group.joinAfter (tasks - company.crew.stage.heeded) first).run) (awaited : company.Awaited) :
    ∃ heard, company.attended = ⟨{ company.crew with stage := company.crew.stage.takeIn heard },
        (Group.joinAfter (tasks - (company.crew.stage.heeded + heard)) (first.or (((company.crew.stage.endings.drop
          company.crew.stage.heeded).take heard).findSome? (Group.failure? ·.2)))).run⟩ ∧
      0 < heard ∧ company.crew.stage.heeded + heard ≤ company.crew.stage.endings.length := by
  obtain ⟨left, unheeded⟩ := unheeded_of_awaited joins awaited
  obtain ⟨heard, polled, few, all, within⟩ :=
    company.crew.stage.poll_joinAfter (tasks - company.crew.stage.heeded) first
  refine ⟨heard, ?_, by omega, within (Nat.le_of_lt unheeded)⟩
  rw [attended, joins, Stage.resume_joinAfter, polled, Nat.sub_sub]

/-- A join goes on until it has heeded all tasks, if they all end. -/
theorem joined_of_ended {tasks : Nat}
    (joins : company.main = (Group.joinAfter (tasks - company.crew.stage.heeded) first).run)
    (ended : company.crew.stage.endings.length = tasks) (unready : ¬company.Awaited) :
    company.main = (Group.joinAfter 0 first).run := by
  cases left : tasks - company.crew.stage.heeded with
  | zero => rwa [left] at joins
  | succ further =>
    rw [left] at joins
    exact absurd (awaited_of_unheeded joins (by omega)) unready

end Company

end QuorumWarden
