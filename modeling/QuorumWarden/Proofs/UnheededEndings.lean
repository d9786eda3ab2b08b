import Mathlib
import QuorumWarden.Proofs.CrewFrames
import QuorumWarden.Proofs.GroupJoins

/-! A group under supervision. The supervision waits for its shutdown and joins the tasks only after it, so that before
it no ending is heeded: the others go on when a task has ended, and the supervision goes on when all have. -/

namespace QuorumWarden

open Procedure

namespace Stage

variable {κ : Type}

/-- The stage goes on, and nobody requests a stop. -/
structure Lasts (before after : Stage κ) : Prop extends Drifts before after where
  unchanged : after.stopped = before.stopped

theorem Lasts.refl (stage : Stage κ) : Lasts stage stage := ⟨.refl stage, rfl⟩

theorem Lasts.trans {before between after : Stage κ} (one : Lasts before between) (two : Lasts between after) :
    Lasts before after := ⟨one.toDrifts.trans two.toDrifts, two.unchanged.trans one.unchanged⟩

variable [World κ] [MarkerStore (StateM κ)]

theorem frame_lasts (calls : World.Keeps κ Lasts) : Frame (κ := κ) Lasts where
  refl := .refl
  trans := .trans
  answer := fun stage asked other => by
    cases asked with
    | requestStop => exact absurd rfl other
    | _ => exact ⟨drifts_answer stage _, rfl⟩
  call := calls

theorem resume_supervise (shutdownAt : Option Nat) (tasks : Nat) {stage : Stage κ} (unstopped : stage.stopped = false) :
    stage.resume (Group.supervise shutdownAt tasks).run = stage.poll (Group.supervising shutdownAt tasks) := by
  have looks : ∀ next : Bool → Procedure (Outcome Unit),
      stage.resume (.ask (.prompt .stopRequested) next) = stage.poll (next stage.stopped) := fun _ => rfl
  rw [Group.supervise_run, looks, unstopped]
  rfl

theorem resume_supervising (shutdownAt : Option Nat) (tasks : Nat) {stage : Stage κ} (unstopped : stage.stopped = false) :
    stage.resume (Group.supervising shutdownAt tasks) = stage.poll (Group.supervising shutdownAt tasks) := by
  rw [Group.supervising, resume, unstopped]
  rfl

end Stage

theorem World.Keeps.drifts {κ : Type} [World κ] (keeps : World.Keeps κ Stage.Lasts) : World.Keeps κ Stage.Drifts :=
  fun made stage => (keeps made stage).toDrifts

namespace Company

variable {σ κ : Type} {shutdownAt : Option Nat} {tasks : Nat} {company : Company σ κ}

/-- So many tasks are under supervision. A stop is the shutdown, and only at a stop are they joined. -/
structure Watched (shutdownAt : Option Nat) (tasks : Nat) (company : Company σ κ) : Prop where
  counted : company.crew.workers.length + company.crew.stage.endings.length = tasks
  heeded : company.crew.stage.heeded ≤ company.crew.stage.endings.length
  waiting : company.crew.stage.stopped = false → company.crew.stage.heeded = 0 ∧
    (company.main = (Group.supervise shutdownAt tasks).run ∨ company.main = Group.supervising shutdownAt tasks)
  joining : company.crew.stage.stopped = true → (∃ time, shutdownAt = some time ∧ time ≤ company.crew.stage.now) ∧
    ∃ first, company.main = (Group.joinAfter (tasks - company.crew.stage.heeded) first).run

theorem Watched.lasts (watched : company.Watched shutdownAt tasks) {stage : Stage κ}
    (lasts : company.crew.stage.Lasts stage) : (company.onStage stage).Watched shutdownAt tasks := by
  obtain ⟨counted, heeded, waiting, joining⟩ := watched
  rw [← lasts.endings] at counted heeded
  rw [← lasts.heeded] at heeded waiting joining
  rw [← lasts.unchanged] at waiting joining
  refine ⟨counted, heeded, waiting, fun stopped => ?_⟩
  obtain ⟨⟨time, same, due⟩, joins⟩ := joining stopped
  exact ⟨⟨time, same, Nat.le_trans due lasts.now⟩, joins⟩

/-- An ending leaves the supervision as it was. -/
theorem Watched.retire {stage : Stage κ} (watched : (company.onStage stage).Watched shutdownAt tasks)
    (numbered : company.crew.Numbered) {worker : Worker σ} (member : worker ∈ company.crew.workers) (ending : Ending) :
    Watched shutdownAt tasks { company with crew := company.crew.retire worker stage ending } := by
  obtain ⟨counted, heeded, waiting, joining⟩ := watched
  exact ⟨(numbered.counted_retire member stage ending).trans counted, Crew.heeded_retire heeded worker ending, waiting,
    joining⟩

variable [World κ] [MarkerStore (StateM κ)]

theorem Watched.attend (watched : company.Watched shutdownAt tasks) (awaited : company.Awaited) :
    company.attended.Watched shutdownAt tasks := by
  cases stopped : company.crew.stage.stopped with
  | true =>
    obtain ⟨due, first, joins⟩ := watched.joining stopped
    obtain ⟨heard, attended, _, within⟩ := attended_of_joining joins awaited
    have still : (company.crew.stage.takeIn heard).stopped = true := by simp [Stage.takeIn, stopped]
    rw [attended]
    refine ⟨watched.counted, within, fun unstopped => ?_, fun _ => ⟨due, _, rfl⟩⟩
    exact absurd still (Bool.eq_false_iff.mp unstopped)
  | false =>
    obtain ⟨unheeded, waits⟩ := watched.waiting stopped
    have resumed : company.crew.stage.resume company.main =
        company.crew.stage.poll (Group.supervising shutdownAt tasks) := by
      rcases waits with same | same
      · rw [same, Stage.resume_supervise shutdownAt tasks stopped]
      · rw [same, Stage.resume_supervising shutdownAt tasks stopped]
    rw [attended, resumed]
    rcases Stage.poll_supervising shutdownAt tasks stopped with ⟨due, joins⟩ | same
    -- the turn that requests the stop is also the first to take in endings
    · obtain ⟨heard, polled, _, _, within⟩ := company.crew.stage.requestStop.poll_joinAfter tasks none
      have within : company.crew.stage.heeded + heard ≤ company.crew.stage.endings.length := within watched.heeded
      have left : tasks - (company.crew.stage.heeded + heard) = tasks - heard := by rw [unheeded, Nat.zero_add]
      rw [joins, Group.join, polled, ← left]
      refine ⟨watched.counted, within, fun unstopped => ?_, fun _ => ⟨due, _, rfl⟩⟩
      simp [Stage.takeIn, Stage.requestStop] at unstopped
    · rw [same]
      refine ⟨watched.counted, watched.heeded, fun _ => ⟨unheeded, Or.inr rfl⟩, fun halted => ?_⟩
      exact absurd (stopped.symm.trans halted) Bool.false_ne_true

variable {round : σ → Procedure (Round σ)} (calls : World.Keeps κ Stage.Lasts) (dutiful : Dutiful round)
include calls dutiful

theorem Watched.turn (watched : company.Watched shutdownAt tasks) (sound : company.Sound) {worker : Worker σ}
    (member : worker ∈ company.crew.workers) :
    Watched shutdownAt tasks { company with crew := company.crew.turn round worker } := by
  obtain ⟨rest, stage, ran, turned⟩ := Crew.turn_cases dutiful.heedful company.crew (sound.heedful worker member)
  have lasts : company.crew.stage.Lasts stage := by
    have tame := sound.tame worker member
    have frame := Stage.frame_lasts calls
    have stays := (Crew.runWorker_frame frame dutiful tame Crew.patience company.crew.stage).1
    rw [ran] at stays
    exact stays
  have watched := watched.lasts lasts
  rcases turned with ⟨_, turned⟩ | ⟨_, turned⟩
  · rw [turned]
    exact watched.retire sound.numbered member _
  · rw [turned]
    obtain ⟨counted, heeded, waiting, joining⟩ := watched
    refine ⟨?_, heeded, waiting, joining⟩
    rw [sound.numbered.counted_suspend member]
    exact counted

theorem Course.watched {start : Company σ κ} {mishaps : Prop} {turns : Nat}
    (course : Course round Stage.Lasts mishaps start turns company) (watched : start.Watched shutdownAt tasks)
    (sound : start.Sound) : company.Watched shutdownAt tasks := by
  induction course with
  | start => exact watched
  | turn course member ih => exact ih.turn calls dutiful (course.sound calls.drifts dutiful sound) member
  | attend _ awaited ih => exact ih.attend awaited
  | outside _ lasts ih => exact ih.lasts lasts
  | mishap course _ member _ ih => exact Watched.retire ih (course.numbered sound.numbered) member _

end Company

/-- All duties of a node, none of which has begun, about to be supervised until a shutdown. -/
def DutyCrew.supervision {κ : Type} (duties : DutyCrew κ) (shutdownAt : Option Nat) : Company Duty κ :=
  ⟨duties.crew, (Group.supervise shutdownAt duties.crew.size).run⟩

theorem DutyCrew.supervision_watched {κ : Type} (orders : Orders) {stage : Stage κ} (unended : stage.endings = [])
    (unheeded : stage.heeded = 0) (unstopped : stage.stopped = false) (shutdownAt : Option Nat) :
    ((DutyCrew.all orders stage).supervision shutdownAt).Watched shutdownAt (DutyCrew.all orders stage).crew.size := by
  have fresh := DutyCrew.all_fresh orders stage
  refine ⟨?_, ?_, fun _ => ⟨?_, Or.inl rfl⟩, fun halted => ?_⟩
  · simp [supervision, fresh.stage, unended, Crew.size]
  · simp [supervision, fresh.stage, unended, unheeded]
  · simp [supervision, fresh.stage, unheeded]
  · simp [supervision, fresh.stage, unstopped] at halted

/-- A group under supervision ends at its shutdown and at nothing else. Where nobody can go on any more unless time
passes, it is stopped exactly if the shutdown has come, however many of its tasks have returned or broken off by then.
At a stop all tasks have ended and they are joined; before it the supervision goes on and has heeded no ending. -/
theorem supervision_ends_at_shutdown {κ : Type} [World κ] [MarkerStore (StateM κ)] (orders : Orders) {stage : Stage κ}
    (unended : stage.endings = []) (unheeded : stage.heeded = 0) (unstopped : stage.stopped = false)
    (calls : World.Keeps κ Stage.Lasts) (shutdownAt : Option Nat) {turns : Nat}
    {company : Company Duty κ} (course : Company.Course (Duty.round orders) Stage.Lasts True
      ((DutyCrew.all orders stage).supervision shutdownAt) turns company) (quiet : company.Quiet) :
    (company.crew.stage.stopped = true ↔ ∃ time, shutdownAt = some time ∧ time ≤ company.crew.stage.now) ∧
      (company.crew.stage.stopped = true → company.crew.workers = [] ∧ ∃ outcome, company.main = .done outcome) ∧
      (company.crew.stage.stopped = false → Stage.value? company.main = none ∧ company.crew.stage.heeded = 0) := by
  have fresh := DutyCrew.all_fresh orders stage
  have dutiful := Duty.dutiful orders
  have watched := course.watched calls dutiful (DutyCrew.supervision_watched orders unended unheeded unstopped shutdownAt)
    (fresh.sound _)
  have sound := course.sound calls.drifts dutiful (fresh.sound _)
  refine ⟨⟨fun stopped => (watched.joining stopped).1, fun due => ?_⟩, fun stopped => ?_, fun unstopped => ?_⟩
  · refine eq_true_of_ne_false fun unstopped => quiet.2 ?_
    obtain ⟨time, rfl, due⟩ := due
    rcases (watched.waiting unstopped).2 with same | same
    · rw [Company.Awaited, same, Group.supervise_run]
      exact ⟨rfl, rfl⟩
    · rw [Company.Awaited, same, Group.supervising]
      exact ⟨rfl, Bool.or_eq_true_iff.mpr (Or.inr (decide_eq_true due))⟩
  · have workers := sound.heedful.workers_of_quiet stopped quiet
    have counted := watched.counted
    obtain ⟨_, first, joins⟩ := watched.joining stopped
    rw [workers, List.length_nil, Nat.zero_add] at counted
    have joined := Company.joined_of_ended joins counted quiet.2
    refine ⟨workers, ?_⟩
    rw [joined]
    cases first with
    | none => exact ⟨_, rfl⟩
    | some failure => exact ⟨_, rfl⟩
  · obtain ⟨unheeded, waits⟩ := watched.waiting unstopped
    refine ⟨?_, unheeded⟩
    rcases waits with same | same
    · rw [same, Group.supervise_run]
      rfl
    · rw [same]
      rfl

/-- One duty breaks off while all of them wait for an answer. The others wait on, and so does the supervision. -/
theorem mishap_unheeded : ∃ turns company,
    Company.Course (Duty.round .plain) Stage.Lasts True ((DutyCrew.all .plain { world := ({} : Diary) }).supervision none)
        turns company ∧
      company.Quiet ∧ company.crew.stage.endings.length = 1 ∧ company.crew.size = 3 ∧
      company.crew.stage.stopped = false ∧ Stage.value? company.main = none := by
  have calls : World.Keeps Diary Stage.Lasts := fun _ _ => ⟨⟨rfl, rfl, Nat.le_refl _, id⟩, rfl⟩
  have numbered := (DutyCrew.all_fresh .plain { world := ({} : Diary) }).numbered
  obtain ⟨turns, course⟩ := (Company.Course.start : Company.Course (Duty.round .plain) Stage.Lasts True
    ((DutyCrew.all .plain { world := ({} : Diary) }).supervision none) 0 _).settle numbered 1
  have broken := (course.attend ⟨rfl, rfl⟩).mishap trivial (List.getElem_mem (show 0 < _ by cbv)) "task panicked"
  obtain ⟨stops, _, waits⟩ := supervision_ends_at_shutdown .plain rfl rfl rfl calls none broken
    (Company.quiet_of_all (by cbv) (by cbv))
  have unstopped := Bool.eq_false_iff.mpr fun stopped => by
    obtain ⟨_, never, _⟩ := stops.mp stopped
    cases never
  exact ⟨turns + 1, _, broken, Company.quiet_of_all (by cbv) (by cbv), by cbv, by cbv, unstopped, (waits unstopped).1⟩

/-- A world that answers every call with a cancellation. -/
structure Retreat where
  deriving DecidableEq, Repr

instance : World Retreat where
  call _ stage := (.now (.error .cancelled), stage)

instance : MarkerStore (StateM Retreat) where
  read _ := pure (.ok none)
  write _ _ := pure (.ok ())
  remove _ := pure (.ok ())

/-- All four duties take the answer for a stop and end. Nobody is left, and the supervision waits on for a shutdown that
never comes. -/
theorem empty_group_unstopped : ∃ turns company,
    Company.Course (Duty.round .plain) Stage.Lasts False ((DutyCrew.all .plain { world := Retreat.mk }).supervision none)
        turns company ∧
      company.Quiet ∧ company.crew.stage.endings.length = 4 ∧ company.crew.size = 0 ∧
      company.crew.stage.stopped = false ∧ Stage.value? company.main = none := by
  have numbered := (DutyCrew.all_fresh .plain { world := Retreat.mk }).numbered
  obtain ⟨turns, course⟩ := (Company.Course.start : Company.Course (Duty.round .plain) Stage.Lasts False
    ((DutyCrew.all .plain { world := Retreat.mk }).supervision none) 0 _).settle numbered 1
  have attended := course.attend ⟨rfl, rfl⟩
  exact ⟨turns + 1, _, attended, Company.quiet_of_all (by cbv) (by cbv), by cbv, by cbv, by cbv, by cbv⟩

end QuorumWarden
