import QuorumWarden.Proofs.Companies
import QuorumWarden.Proofs.SteadyDuties

/-! What turns of a crew leave as it was. A task that keeps off the group does so for good, so none of its turns can end
another task or unsay a stop. -/

namespace QuorumWarden

open Procedure

/-- Rounds that heed a stop, keep off the group, and lead to another round where it is calm. -/
structure Dutiful {σ : Type} (round : σ → Procedure (Round σ)) : Prop where
  heedful : ∀ state, Crew.Heedful (round state)
  tame : ∀ state, (round state).Tame
  steady : ∀ state, (round state).Steady True Round.Goes

theorem Procedure.Tame.of_steady {α : Type} {ends : α → Prop} {procedure : Procedure α}
    (steady : procedure.Steady False ends) : procedure.Tame :=
  Program.Holds.mono steady (fun _ _ asked => asked) fun _ _ _ _ => trivial

theorem Duty.dutiful (orders : Orders) : Dutiful (Duty.round orders) where
  heedful := Duty.round_poised orders
  tame := fun duty => .of_steady (duty.steady_round orders)
  steady := Duty.steady_round orders

namespace Crew

variable {σ κ : Type} [World κ] [MarkerStore (StateM κ)] {round : σ → Procedure (Round σ)} {task : Procedure (Round σ)}

theorem runWorker_frame {stays : Stage κ → Stage κ → Prop} (frame : Stage.Frame stays) (dutiful : Dutiful round)
    (tame : task.Tame) (patience : Nat) (stage : Stage κ) :
    stays stage (runWorker round patience stage task).2 ∧ (runWorker round patience stage task).1.Tame := by
  have rounds := fun state => Procedure.tame_iff_asks.mp (dutiful.tame state)
  obtain ⟨stayed, left⟩ := frame.manner.runWorker rounds (Procedure.tame_iff_asks.mp tame) patience stage
  exact ⟨stayed, Procedure.tame_iff_asks.mpr left⟩

/-- Where it is calm, another round comes of every turn, until a stop. -/
theorem runWorker_steady (serene : Stage.Serene κ) (calls : World.Keeps κ Stage.Drifts) (dutiful : Dutiful round)
    (tame : task.Tame) (steady : task.Steady True Round.Goes) (patience : Nat) (stage : Stage κ)
    (unstopped : (runWorker round patience stage task).2.stopped = false) :
    (runWorker round patience stage task).1.Steady True Round.Goes := by
  induction patience generalizing stage task with
  | zero => exact steady
  | succ patience ih =>
    have left := Stage.resume_steady (fun _ => serene) calls tame steady stage
    revert unstopped
    rw [runWorker]
    split <;> intro unstopped
    next state after same => exact ih (dutiful.tame state) (dutiful.steady state) after unstopped
    next => exact left fun _ => unstopped

end Crew

namespace Company

variable {σ κ : Type} {start company : Company σ κ}

/-- No task of the group uses what belongs to the group. -/
def Tame (company : Company σ κ) : Prop := ∀ worker ∈ company.crew.workers, worker.rest.Tame

theorem Tame.retire (tame : company.Tame) (worker : Worker σ) (stage : Stage κ) (ending : Ending) :
    Tame { company with crew := company.crew.retire worker stage ending } :=
  fun other member => tame other ((company.crew.others_sublist worker).subset member)

variable [World κ] [MarkerStore (StateM κ)] {round : σ → Procedure (Round σ)} {outside : Stage κ → Stage κ → Prop}
  {mishaps : Prop} {turns : Nat}

theorem Course.tame (calls : World.Keeps κ Stage.Drifts) (dutiful : Dutiful round)
    (course : Course round outside mishaps start turns company) (tame : start.Tame) : company.Tame := by
  induction course with
  | start => exact tame
  | @turn _ company worker _ member ih =>
    obtain ⟨rest, stage, ran, ⟨ending, _, turned⟩ | ⟨_, turned⟩⟩ := company.crew.turn_shape round worker
    · rw [turned]
      exact ih.retire worker stage ending
    · have frame := Stage.frame_drifts calls
      have left := (Crew.runWorker_frame frame dutiful (ih worker member) Crew.patience company.crew.stage).2
      rw [ran] at left
      rw [turned]
      intro other member
      rcases List.mem_append.mp member with old | new
      · exact ih other ((company.crew.others_sublist worker).subset old)
      · cases List.mem_singleton.mp new
        exact left
  | attend _ _ ih | outside _ _ ih => exact ih
  | mishap _ _ _ _ ih => exact ih.retire _ _ _

/-- What is true of the tasks between any turns. -/
structure Sound (company : Company σ κ) : Prop where
  numbered : company.crew.Numbered
  heedful : company.Heedful
  tame : company.Tame

theorem Course.sound (calls : World.Keeps κ Stage.Drifts) (dutiful : Dutiful round)
    (course : Course round outside mishaps start turns company) (sound : start.Sound) : company.Sound where
  numbered := course.numbered sound.numbered
  heedful := course.heedful sound.heedful dutiful.heedful
  tame := course.tame calls dutiful sound.tame

end Company

theorem Crew.Fresh.sound {κ : Type} {orders : Orders} {stage : Stage κ} {crew : Crew Duty κ}
    (fresh : crew.Fresh orders stage) (main : Procedure (Outcome Unit)) : (Company.mk crew main).Sound := by
  refine ⟨fresh.numbered, fresh.heedful main, fun worker member => ?_⟩
  obtain ⟨duty, same⟩ := fresh.duties worker member
  rw [same]
  exact (Duty.dutiful orders).tame duty

end QuorumWarden
