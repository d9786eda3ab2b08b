import QuorumWarden.Proofs.TaskRuns
import QuorumWarden.Simulation.Crew

/-! Turns of procedures that keep to certain requests. Whatever answering any one of these requests leaves alone on the
stage, a turn leaves alone, and what is left of the procedure keeps to them too. -/

namespace QuorumWarden

open Procedure

namespace Stage

variable {κ α : Type} [World κ] [MarkerStore (StateM κ)]

/-- Requests with what answering them makes of the stage. A wait that is held leads to no other request. -/
structure Manner (allowed : Request → Prop) (stays : Stage κ → Stage κ → Prop) : Prop where
  refl : ∀ stage, stays stage stage
  trans : ∀ {before between after}, stays before between → stays between after → stays before after
  answer : ∀ (stage : Stage κ) asked, allowed (.prompt asked) → stays stage (stage.answer asked).2
  attempt : ∀ (stage : Stage κ) wait, allowed (.await wait) → stays stage (stage.attempt wait).2
  held : ∀ (stage : Stage κ) {wait rest back}, allowed (.await wait) → (stage.attempt wait).1 = .held rest back →
    allowed (.await rest)
  yields : ∀ wait, allowed (.awaitOrStop wait) ↔ allowed (.await wait)

namespace Manner

variable {allowed : Request → Prop} {stays : Stage κ → Stage κ → Prop} {procedure : Procedure α}

theorem poll (manner : Manner allowed stays) (asks : procedure.Asks allowed) (stage : Stage κ) :
    stays stage (stage.poll procedure).2 ∧ (stage.poll procedure).1.Asks allowed := by
  induction procedure generalizing stage with
  | done value => exact ⟨manner.refl stage, asks⟩
  | ask request next ih =>
    obtain ⟨may, onward⟩ := asks
    have onward : ∀ reply, Asks allowed (next reply) := fun reply => onward reply () trivial
    cases request with
    | prompt asked =>
      obtain ⟨stayed, left⟩ := ih _ (onward _) (stage.answer asked).2
      exact ⟨manner.trans (manner.answer stage asked may) stayed, left⟩
    | await wait =>
      have attempted : stays stage (stage.attempt wait).2 := manner.attempt stage wait may
      rw [Stage.poll]
      split
      next reply after answered =>
        obtain ⟨stayed, left⟩ := ih reply (onward reply) after
        rw [answered] at attempted
        exact ⟨manner.trans attempted stayed, left⟩
      next rest back after waits =>
        have held := manner.held stage may (congrArg Prod.fst waits)
        rw [waits] at attempted
        exact ⟨attempted, .ask held fun reply => onward (back reply)⟩
    | awaitOrStop wait =>
      have may := (manner.yields wait).mp may
      have attempted : stays stage (stage.attempt wait).2 := manner.attempt stage wait may
      rw [Stage.poll]
      split
      next reply after answered =>
        obtain ⟨stayed, left⟩ := ih (some reply) (onward _) after
        rw [answered] at attempted
        exact ⟨manner.trans attempted stayed, left⟩
      next rest back after waits =>
        have held := manner.held stage may (congrArg Prod.fst waits)
        rw [waits] at attempted
        split
        next =>
          obtain ⟨stayed, left⟩ := ih none (onward none) after
          exact ⟨manner.trans attempted stayed, left⟩
        next => exact ⟨attempted, .ask ((manner.yields rest).mpr held) fun reply => onward (reply.map back)⟩

theorem resume (manner : Manner allowed stays) (asks : procedure.Asks allowed) (stage : Stage κ) :
    stays stage (stage.resume procedure).2 ∧ (stage.resume procedure).1.Asks allowed := by
  unfold Stage.resume
  split
  next wait next =>
    split
    next => exact manner.poll (asks.2 none () trivial) stage
    next => exact manner.poll asks stage
  next => exact manner.poll asks stage

theorem runWorker (manner : Manner allowed stays) {σ : Type} {round : σ → Procedure (Round σ)}
    (rounds : ∀ state, (round state).Asks allowed) {task : Procedure (Round σ)} (asks : task.Asks allowed)
    (patience : Nat) (stage : Stage κ) :
    stays stage (Crew.runWorker round patience stage task).2 ∧
      (Crew.runWorker round patience stage task).1.Asks allowed := by
  induction patience generalizing stage task with
  | zero => exact ⟨manner.refl stage, asks⟩
  | succ patience ih =>
    have resumed := manner.resume asks stage
    rw [Crew.runWorker]
    split
    next state after same =>
      rw [same] at resumed
      obtain ⟨onward, left⟩ := ih (rounds state) after
      exact ⟨manner.trans resumed.1 onward, left⟩
    next => exact resumed

end Manner

end Stage

end QuorumWarden
