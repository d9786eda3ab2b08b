import Mathlib
import QuorumWarden.Proofs.Companies
import QuorumWarden.Proofs.FreeRuns
import QuorumWarden.Proofs.GroupJoins
import QuorumWarden.Proofs.TurnManners

/-! What is left to do once a stop is requested: nothing. The tasks end without another call, and whoever waits for them
touches nothing either. -/

namespace QuorumWarden

open Procedure

namespace Stage

variable {κ : Type} {before between after : Stage κ}

/-- The world, the counters and all other records are as they were. -/
structure Untouched (before after : Stage κ) : Prop where
  world : after.world = before.world
  metrics : after.metrics = before.metrics
  notices : after.notices = before.notices
  readings : after.readings = before.readings

/-- Nothing happens but that time passes, tasks end or a stop is requested. -/
structure Idles (before after : Stage κ) : Prop extends Untouched before after where
  stopped : before.stopped = true → after.stopped = true

theorem Idles.refl (stage : Stage κ) : Idles stage stage := ⟨⟨rfl, rfl, rfl, rfl⟩, id⟩

theorem Idles.trans (one : Idles before between) (two : Idles between after) : Idles before after where
  world := two.world.trans one.world
  metrics := two.metrics.trans one.metrics
  notices := two.notices.trans one.notices
  readings := two.readings.trans one.readings
  stopped := two.stopped ∘ one.stopped

end Stage

/-- A request of one who waits for tasks. -/
def Request.Attending : Request → Prop
  | .prompt .stopRequested | .prompt .requestStop => True
  | .await .ending | .await (.sleepUntil _) | .await .forever => True
  | .awaitOrStop .ending | .awaitOrStop (.sleepUntil _) | .awaitOrStop .forever => True
  | _ => False

namespace Procedure

variable {α : Type} {procedure : Procedure α}

/-- The procedure looks for stops and endings, and at the time. -/
abbrev Attends (procedure : Procedure α) : Prop :=
  Program.Holds Law.free (fun request _ => request.Attending) (fun _ _ => True) procedure ()

theorem attends_joinAfter (tasks : Nat) (first : Option Failure) : (Group.joinAfter tasks first).run.Attends := by
  induction tasks generalizing first with
  | zero => cases first <;> trivial
  | succ tasks ih => exact ⟨trivial, fun ending _ _ => ⟨trivial, fun _ _ _ => ih (first.or (Group.failure? ending))⟩⟩

theorem attends_supervise (shutdownAt : Option Nat) (tasks : Nat) : (Group.supervise shutdownAt tasks).run.Attends := by
  have joins := attends_joinAfter tasks none
  rw [Group.supervise_run]
  refine ⟨trivial, fun stop _ _ => ?_⟩
  cases stop with
  | true => exact joins
  | false =>
    refine ⟨by cases shutdownAt <;> trivial, fun came _ _ => ?_⟩
    cases came with
    | none => exact joins
    | some came => exact ⟨trivial, fun _ _ _ => joins⟩

end Procedure

namespace Stage

variable {κ : Type} [World κ]

/-- To attend is to leave the stage alone, whether or not there is an answer yet. -/
theorem attempt_attending (stage : Stage κ) {wait : Wait} (attending : (Request.await wait).Attending) :
    stage.Idles (stage.attempt wait).2 ∧
      ∀ rest back, (stage.attempt wait).1 = .held rest back → (Request.await rest).Attending := by
  cases wait with
  | call | gather | frequencyNews => exact attending.elim
  | sleepUntil time =>
    refine ⟨.refl stage, fun rest back held => ?_⟩
    simp only [attempt] at held
    split at held <;> cases held
    trivial
  | forever =>
    refine ⟨.refl stage, fun rest back held => ?_⟩
    cases held
    trivial
  | ending =>
    cases next : stage.endings[stage.heeded]? with
    | none =>
      rw [attempt_ending_of_none next]
      refine ⟨.refl stage, fun rest back held => ?_⟩
      cases held
      trivial
    | some ended =>
      rw [attempt_ending_of_some next]
      refine ⟨⟨⟨rfl, rfl, rfl, rfl⟩, id⟩, fun rest back held => ?_⟩
      cases held

variable [MarkerStore (StateM κ)]

theorem manner_attending : Manner (κ := κ) Request.Attending Idles where
  refl := .refl
  trans := .trans
  answer := fun stage asked attending => by
    cases asked with
    | stopRequested => exact .refl stage
    | requestStop => exact ⟨⟨rfl, rfl, rfl, rfl⟩, fun _ => rfl⟩
    | _ => exact attending.elim
  attempt := fun stage _ attending => (attempt_attending stage attending).1
  held := fun stage _ _ _ attending held => (attempt_attending stage attending).2 _ _ held
  yields := fun wait => by cases wait <;> exact Iff.rfl

end Stage

namespace Company

variable {κ σ : Type} [World κ] [MarkerStore (StateM κ)] {round : σ → Procedure (Round σ)}
  {outside : Stage κ → Stage κ → Prop} {mishaps : Prop} {start company later : Company σ κ} {turns : Nat}

theorem Course.attends (course : Course round outside mishaps start turns company) (attends : start.main.Attends) :
    company.main.Attends := by
  induction course with
  | start => exact attends
  | attend _ _ ih => exact (Stage.manner_attending.resume ih _).2
  | turn _ _ ih | outside _ _ ih | mishap _ _ _ _ ih => exact ih

/-- From a stop on, the tasks and who waits for them leave the stage alone. -/
theorem Course.idles (course : Course round Stage.Idles mishaps start turns company)
    (stopped : start.crew.stage.stopped = true) (heedful : start.Heedful)
    (rounds : ∀ state, Crew.Heedful (round state)) (attends : start.main.Attends) :
    start.crew.stage.Idles company.crew.stage := by
  have retired : ∀ (stage : Stage κ) endings, stage.Idles { stage with endings } :=
    fun stage _ => ⟨⟨rfl, rfl, rfl, rfl⟩, id⟩
  induction course with
  | start => exact .refl _
  | @turn _ company worker course member ih =>
    rw [Crew.turn_stopped company.crew (ih.stopped stopped) (course.heedful heedful rounds worker member)]
    exact ih.trans (retired _ _)
  | attend course _ ih => exact ih.trans (Stage.manner_attending.resume (course.attends attends) _).1
  | outside _ changed ih => exact ih.trans changed
  | mishap _ _ _ _ ih => exact ih.trans (retired _ _)

end Company

/-- A stop leaves everything as it was. Whenever it comes between the turns of a group, however the ports and markers
have answered by then and would answer after it, no task uses them again or counts anything, nor does who waits for the
tasks: not even a world that notes every call tells the difference, and the markers read as they did. -/
theorem stop_leaves_all {κ : Type} [World κ] [MarkerStore (StateM κ)] (orders : Orders) (stage : Stage κ)
    {main : Procedure (Outcome Unit)} (attends : main.Attends) {outside : Stage κ → Stage κ → Prop} {mishaps : Prop}
    {turns more : Nat} {company later : Company Duty κ}
    (course : Company.Course (Duty.round orders) outside mishaps ⟨(DutyCrew.all orders stage).crew, main⟩ turns company)
    (onward : Company.Course (Duty.round orders) Stage.Idles mishaps (company.onStage company.crew.stage.requestStop)
      more later) :
    company.crew.stage.Untouched later.crew.stage ∧
      ∀ marker, (later.crew.stage.answer (.readMarker marker)).1 = (company.crew.stage.answer (.readMarker marker)).1 := by
  have heedful := course.heedful ((DutyCrew.all_fresh orders stage).heedful main) fun duty => duty.round_poised orders
  have stopped : (company.onStage company.crew.stage.requestStop).crew.stage.stopped = true := rfl
  have idles := onward.idles stopped heedful (fun duty => duty.round_poised orders) (course.attends attends)
  have world : later.crew.stage.world = company.crew.stage.world := idles.world
  refine ⟨⟨world, idles.metrics, idles.notices, idles.readings⟩, fun marker => ?_⟩
  simp only [Stage.answer, Stage.inWorld, world]
  rfl

/-- The stop comes while all four duties wait for an answer. They end without another call. -/
theorem stopped_amid_calls : ∃ turns more company later,
    Company.Course (Duty.round .plain) Stage.Idles False
        ⟨(DutyCrew.all .plain { world := ({} : Diary) }).crew, (Group.supervise none 4).run⟩ turns company ∧
      Company.Course (Duty.round .plain) Stage.Idles False (company.onStage company.crew.stage.requestStop) more later ∧
      company.crew.size = 4 ∧ later.crew.size = 0 ∧
      later.crew.stage.world.calls = List.replicate 4 (.connect "host-1") := by
  obtain ⟨turns, course⟩ := (Company.Course.start : Company.Course (Duty.round .plain) Stage.Idles False
    ⟨(DutyCrew.all .plain { world := ({} : Diary) }).crew, (Group.supervise none 4).run⟩ 0 _).settle
      (DutyCrew.all_fresh _ _).numbered 1
  have numbered := course.numbered (DutyCrew.all_fresh _ _).numbered
  obtain ⟨more, onward⟩ := (Company.Course.start : Company.Course (Duty.round .plain) Stage.Idles False
    (Company.onStage _ (Stage.requestStop _)) 0 _).settle ⟨numbered.distinct, numbered.issued⟩ 1
  have left := stop_leaves_all .plain _ (Procedure.attends_supervise none 4) course onward
  refine ⟨turns, more, _, _, course, onward, by cbv, by cbv, ?_⟩
  rw [left.1.world]
  cbv

end QuorumWarden
