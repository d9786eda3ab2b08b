import Mathlib
import QuorumWarden.Proofs.CrewFrames
import QuorumWarden.Proofs.GroupJoins

/-! A group whose collaborators fail without ever cancelling. Its tasks go on until a stop. After one every turn leads
towards the end, and the join of the group fails no more than its tasks did. -/

namespace QuorumWarden

open Procedure

namespace Company

variable {σ κ : Type} {tasks : Nat} {company : Company σ κ}

/-- All tasks have ended, and they are joined. -/
structure Ended (company : Company σ κ) : Prop where
  workers : company.crew.workers = []
  main : company.main = .done (.ok ())

/-- So many tasks are at work or have ended in good order, and they are being joined. -/
structure Afoot (tasks : Nat) (company : Company σ κ) : Prop where
  counted : company.crew.workers.length + company.crew.stage.endings.length = tasks
  heeded : company.crew.stage.heeded ≤ company.crew.stage.endings.length
  orderly : ∀ ended ∈ company.crew.stage.endings, ∃ task, ended.2 = .returned task (.ok ())
  joining : company.main = (Group.joinAfter (tasks - company.crew.stage.heeded) none).run
  unended : company.crew.stage.stopped = false → company.crew.stage.endings = []
  steady : company.crew.stage.stopped = false → ∀ worker ∈ company.crew.workers, worker.rest.Steady True Round.Goes

theorem Afoot.drifts (afoot : company.Afoot tasks) {stage : Stage κ} (drift : company.crew.stage.Drifts stage) :
    (company.onStage stage).Afoot tasks := by
  obtain ⟨counted, heeded, orderly, joining, unended, steady⟩ := afoot
  rw [← drift.endings] at counted heeded orderly
  rw [← drift.heeded] at heeded joining
  refine ⟨counted, heeded, orderly, joining, fun unstopped => ?_, fun unstopped => ?_⟩
  · exact drift.endings.trans (unended (drift.unstopped unstopped))
  · exact steady (drift.unstopped unstopped)

/-- What is left to do at a stop: each task has to end, and each ending has to be heeded. -/
def rank (company : Company σ κ) : Nat :=
  2 * company.crew.workers.length + (company.crew.stage.endings.length - company.crew.stage.heeded)

theorem Afoot.rank_le (afoot : company.Afoot tasks) : company.rank ≤ 2 * tasks := by
  have counted := afoot.counted
  unfold rank
  omega

theorem Afoot.ended (afoot : company.Afoot tasks) (heedful : company.Heedful)
    (stopped : company.crew.stage.stopped = true) (quiet : company.Quiet) : company.Ended := by
  have workers := heedful.workers_of_quiet stopped quiet
  have counted := afoot.counted
  rw [workers, List.length_nil, Nat.zero_add] at counted
  exact ⟨workers, joined_of_ended afoot.joining counted quiet.2⟩

variable [World κ] [MarkerStore (StateM κ)]

/-- The join takes in what has ended so far. -/
theorem Afoot.attend (afoot : company.Afoot tasks) (awaited : company.Awaited) :
    company.attended.Afoot tasks ∧ company.attended.crew.stage.stopped = true ∧
      company.attended.rank + 1 ≤ company.rank := by
  obtain ⟨heard, attended, progress, within⟩ := attended_of_joining afoot.joining awaited
  have blameless : ((company.crew.stage.endings.drop company.crew.stage.heeded).take heard).findSome?
      (Group.failure? ·.2) = none := by
    refine List.findSome?_eq_none_iff.mpr fun ended member => ?_
    obtain ⟨task, same⟩ := afoot.orderly ended (List.mem_of_mem_drop (List.mem_of_mem_take member))
    rw [same]
    rfl
  have stopped : (company.crew.stage.takeIn heard).stopped = true := by simp [Stage.takeIn, progress]
  rw [attended, blameless]
  refine ⟨⟨afoot.counted, within, afoot.orderly, rfl, fun unstopped => ?_, fun unstopped => ?_⟩, stopped, ?_⟩
  · exact absurd stopped (Bool.eq_false_iff.mp unstopped)
  · exact absurd stopped (Bool.eq_false_iff.mp unstopped)
  · simp only [rank, Stage.takeIn]
    omega

variable {round : σ → Procedure (Round σ)}

section

variable (serene : Stage.Serene κ) (calls : World.Keeps κ Stage.Drifts) (dutiful : Dutiful round)
include serene calls dutiful

theorem Afoot.turn (afoot : company.Afoot tasks) (sound : company.Sound) {worker : Worker σ}
    (member : worker ∈ company.crew.workers) : Afoot tasks { company with crew := company.crew.turn round worker } := by
  have tame := sound.tame worker member
  obtain ⟨rest, stage, ran, turned⟩ := Crew.turn_cases dutiful.heedful company.crew (sound.heedful worker member)
  have drift : company.crew.stage.Drifts stage := by
    have frame := Stage.frame_drifts calls
    have stays := (Crew.runWorker_frame frame dutiful tame Crew.patience company.crew.stage).1
    rw [ran] at stays
    exact stays
  have goes : stage.stopped = false → rest.Steady True Round.Goes := by
    intro unstopped
    have steady := Crew.runWorker_steady serene calls dutiful tame
      (afoot.steady (drift.unstopped unstopped) worker member) Crew.patience company.crew.stage
    rw [ran] at steady
    exact steady unstopped
  obtain ⟨counted, heeded, orderly, joining, unended, steady⟩ := afoot.drifts drift
  rcases turned with ⟨ended, turned⟩ | ⟨waits, turned⟩
  -- before a stop the turn would have come to another round, so a task that has ended was stopped
  · have stopped : stage.stopped = true := by
      refine eq_true_of_ne_false fun unstopped => ?_
      rw [ended] at goes
      obtain ⟨_, same⟩ := goes unstopped trivial
      cases same
    rw [turned]
    refine ⟨(sound.numbered.counted_retire member stage _).trans counted, Crew.heeded_retire heeded worker _,
      List.forall_mem_append.mpr ⟨orderly, List.forall_mem_singleton.mpr ⟨_, rfl⟩⟩, joining, ?_, ?_⟩
    · exact fun unstopped => absurd stopped (Bool.eq_false_iff.mp unstopped)
    · exact fun unstopped => absurd stopped (Bool.eq_false_iff.mp unstopped)
  · rw [turned]
    refine ⟨?_, heeded, orderly, joining, unended, fun unstopped => ?_⟩
    · rw [sound.numbered.counted_suspend member]
      exact counted
    · refine List.forall_mem_append.mpr ⟨fun other among => ?_, List.forall_mem_singleton.mpr (goes unstopped)⟩
      exact steady unstopped other ((company.crew.others_sublist worker).subset among)

variable {start : Company σ κ} {turns : Nat}

theorem Course.afoot (course : Course round Stage.Drifts False start turns company) (afoot : start.Afoot tasks)
    (sound : start.Sound) : company.Afoot tasks := by
  induction course with
  | start => exact afoot
  | turn course member ih => exact ih.turn serene calls dutiful (course.sound calls dutiful sound) member
  | attend _ awaited ih => exact (ih.attend awaited).1
  | outside _ drift ih => exact ih.drifts drift
  | mishap _ may _ _ _ => exact may.elim

/-- From a stop on, every turn is one less to come. -/
theorem Course.rank_le (course : Course round Stage.Drifts False start turns company) (afoot : start.Afoot tasks)
    (sound : start.Sound) (stopped : start.crew.stage.stopped = true) :
    company.crew.stage.stopped = true ∧ turns + company.rank ≤ start.rank := by
  induction course with
  | start => exact ⟨stopped, by omega⟩
  | @turn turns company worker course member ih =>
    obtain ⟨stopped, falls⟩ := ih
    have sound := course.sound calls dutiful sound
    have others := Crew.others_length sound.numbered.distinct member
    rw [Crew.turn_stopped company.crew stopped (sound.heedful worker member)]
    refine ⟨stopped, ?_⟩
    simp only [rank, Crew.retire, List.length_append, List.length_singleton] at falls ⊢
    omega
  | attend course awaited ih =>
    obtain ⟨stopped, falls⟩ := ih
    obtain ⟨_, still, less⟩ := (course.afoot serene calls dutiful afoot sound).attend awaited
    exact ⟨still, by omega⟩
  | outside _ drift ih =>
    obtain ⟨stopped, falls⟩ := ih
    refine ⟨drift.stopped stopped, ?_⟩
    simpa only [rank, onStage, drift.endings, drift.heeded] using falls
  | mishap _ may _ _ _ => exact may.elim

end

end Company

/-- All duties of a node, none of which has begun, about to be joined. -/
def DutyCrew.joining {κ : Type} (duties : DutyCrew κ) : Company Duty κ := ⟨duties.crew, (Group.join duties.crew.size).run⟩

theorem DutyCrew.joining_afoot {κ : Type} (orders : Orders) {stage : Stage κ} (unended : stage.endings = [])
    (unheeded : stage.heeded = 0) : (DutyCrew.all orders stage).joining.Afoot (DutyCrew.all orders stage).crew.size := by
  have fresh := DutyCrew.all_fresh orders stage
  refine ⟨?_, ?_, ?_, ?_, fun _ => ?_, fun _ worker member => ?_⟩
  · simp [joining, fresh.stage, unended, Crew.size]
  · simp [joining, fresh.stage, unended, unheeded]
  · simp [joining, fresh.stage, unended]
  · simp [joining, fresh.stage, unheeded, Group.join]
  · simp [joining, fresh.stage, unended]
  · obtain ⟨duty, same⟩ := fresh.duties worker member
    rw [same]
    exact duty.steady_round orders

/-- Nothing but a stop ends the duties of a node, however its ports and markers answer and change between the turns, as
long as none of them answers with a cancellation. At a stop every turn is one of the last, all duties end in good order,
and when nobody can go on any more they are joined without a failure. -/
theorem duties_outlast_failures {κ : Type} [World κ] [MarkerStore (StateM κ)] (orders : Orders) {stage : Stage κ}
    (unended : stage.endings = []) (unheeded : stage.heeded = 0) (serene : Stage.Serene κ)
    (calls : World.Keeps κ Stage.Drifts) {turns : Nat} {company : Company Duty κ}
    (course : Company.Course (Duty.round orders) Stage.Drifts False (DutyCrew.all orders stage).joining turns company) :
    (company.crew.stage.stopped = false →
        company.crew.stage.endings = [] ∧ company.crew.size = (Duty.all orders stage.now).length) ∧
      (company.crew.stage.stopped = true → ∀ {more : Nat} {later : Company Duty κ},
        Company.Course (Duty.round orders) Stage.Drifts False company more later →
          more ≤ 2 * (Duty.all orders stage.now).length ∧
            (∀ ended ∈ later.crew.stage.endings, ∃ task, ended.2 = .returned task (.ok ())) ∧
            (later.Quiet → later.Ended ∧ later.crew.stage.endings.length = (Duty.all orders stage.now).length)) := by
  have fresh := DutyCrew.all_fresh orders stage
  have dutiful := Duty.dutiful orders
  have afoot := course.afoot serene calls dutiful (DutyCrew.joining_afoot orders unended unheeded) (fresh.sound _)
  rw [DutyCrew.all_size] at afoot
  have sound := course.sound calls dutiful (fresh.sound _)
  refine ⟨fun unstopped => ?_, fun stopped more later onward => ?_⟩
  · have none := afoot.unended unstopped
    have counted := afoot.counted
    rw [none] at counted
    exact ⟨none, counted⟩
  · have last := onward.afoot serene calls dutiful afoot sound
    obtain ⟨still, falls⟩ := onward.rank_le serene calls dutiful afoot sound stopped
    have few := afoot.rank_le
    refine ⟨by omega, last.orderly, fun quiet => ?_⟩
    have ended := last.ended (onward.sound calls dutiful sound).heedful still quiet
    have counted := last.counted
    rw [ended.workers, List.length_nil, Nat.zero_add] at counted
    exact ⟨ended, counted⟩

/-- A world in which no call succeeds and no marker can be touched. -/
structure Blackout where
  deriving DecidableEq, Repr

instance : World Blackout where
  call _ stage := (.now (.error (.message "unreachable")), stage)

instance : MarkerStore (StateM Blackout) where
  read _ := pure (.error (.message "unreadable"))
  write _ _ := pure (.error (.message "unwritable"))
  remove _ := pure (.error (.message "unwritable"))

theorem Blackout.serene : Stage.Serene Blackout := by
  have uncancelled : ∀ {α : Type} (text : String), Outcome.Uncancelled (.error (.message text) : Outcome α) := by
    rintro α text _ ⟨⟩
    rfl
  constructor
  · rintro made stage _ ⟨⟩
    exact uncancelled _
  · rintro made stage _ _ ⟨⟩
  · exact fun _ _ => uncancelled _
  · exact fun _ _ _ => uncancelled _
  · exact fun _ _ => uncancelled _

/-- Every call fails, and all four duties go on; then they are stopped. -/
theorem blackout_outlasted : ∃ turns more company later,
    Company.Course (Duty.round .plain) Stage.Drifts False (DutyCrew.all .plain { world := Blackout.mk }).joining
        turns company ∧
      Company.Course (Duty.round .plain) Stage.Drifts False (company.onStage company.crew.stage.requestStop) more later ∧
      company.crew.stage.metrics.get .ticksFailed = 4 ∧ company.crew.stage.endings = [] ∧ company.crew.size = 4 ∧
      later.Ended ∧ later.crew.stage.endings.length = 4 := by
  have calls : World.Keeps Blackout Stage.Drifts := fun _ stage => .refl stage
  have halts : ∀ stage : Stage Blackout, stage.Drifts stage.requestStop :=
    fun _ => ⟨rfl, rfl, Nat.le_refl _, fun _ => rfl⟩
  have settles : ∀ company : Company Duty Blackout, company.crew.Numbered → ∃ turns,
      Company.Course (Duty.round .plain) Stage.Drifts False company turns
        { company with crew := company.crew.settle (Duty.round .plain) 1 } :=
    fun _ numbered => Company.Course.start.settle numbered 1
  have numbered := (DutyCrew.all_fresh .plain { world := Blackout.mk }).numbered
  obtain ⟨turns, course⟩ := settles (DutyCrew.all .plain { world := Blackout.mk }).joining numbered
  have halted := course.outside (halts _)
  obtain ⟨more, onward⟩ := settles _ (halted.numbered numbered)
  have joins : (DutyCrew.all .plain { world := Blackout.mk }).joining.main = (Group.joinAfter (3 + 1) none).run := rfl
  have attended := onward.attend (Company.awaited_of_unheeded joins (by cbv))
  have before := duties_outlast_failures .plain rfl rfl Blackout.serene calls course
  obtain ⟨_, _, ends⟩ := (duties_outlast_failures .plain rfl rfl Blackout.serene calls halted).2 rfl attended
  refine ⟨turns, more + 1, _, _, course, attended, by cbv, (before.1 (by cbv)).1, (before.1 (by cbv)).2, ends ⟨?_, ?_⟩⟩
  · exact fun worker member => absurd (List.length_pos_of_mem member) (by cbv)
  · refine fun awaited => absurd awaited.1 ?_
    cbv
    exact Option.some_ne_none _

end QuorumWarden
