import Mathlib
import QuorumWarden.Proofs.Evaluations
import QuorumWarden.Proofs.PlayedGround

/-! What becomes of a recovery that was cut short. The next confirmed evaluation looks at the zombie
lock alone, and the lock is the first thing a recovery drops. -/

namespace QuorumWarden

open QuorumWarden.Action ClusterState Relation

def Server.Recovered (server : Server) (ground : Ground) : Prop :=
  ground.markers.zombieLock = none ∧ server.Writable ground

/-- An evaluation, cut short anywhere, that did not come to confirm the node. -/
def QuietTick (server : Server) (before after : Ground) : Prop :=
  ∃ trace rest, Program.Steps server.law (evaluate server.host).run before trace rest after ∧
    counted? trace ≠ some (counter .confirmed)

/-- A recovery cut short anywhere, and the next evaluation that confirms the node. Nothing stops
that one and nothing fails in it. -/
structure Retry (server : Server) (start left before after : Ground) : Prop where
  locked : start.markers.zombieLock ≠ none
  interrupted : ∃ trace rest, Program.Steps server.law (evaluate server.host).run start trace rest left ∧
    counted? trace = some (counter .confirmed)
  meanwhile : ReflTransGen (QuietTick server) left before
  unheld : before.markers.readonlyLock = none
  confirmed : ∃ trace outcome, Program.Runs server.law (evaluate server.host).run before trace outcome after ∧
    counted? trace = some (counter .confirmed) ∧ ∀ event ∈ trace, ¬event.stops ∧ event.failure? = none

variable {server : Server} {start left before after : Ground} {earlier trace : List (Program.Event Request.Reply)}
  {rest : Procedure (Outcome (Option Diagnosis))} {outcome : Outcome (Option Diagnosis)}

theorem quietTick_locks (tick : QuietTick server before after) : after = before ∨ after.markers.zombieLock ≠ none := by
  obtain ⟨trace, rest, steps, quiet⟩ := tick
  rcases evaluate_steps steps with ⟨_, same⟩ | ⟨diagnosis, counted, acted⟩
  · exact Or.inl same
  have suspect : diagnosis.verdict ≠ .confirmed := by
    intro confirmed
    rw [confirmed] at counted
    exact quiet counted
  exact (act_suspect_moves suspect acted).imp_right Server.Engaged.locked

theorem quietTicks_lock (ticks : ReflTransGen (QuietTick server) before after) :
    after = before ∨ after.markers.zombieLock ≠ none := by
  induction ticks with
  | refl => exact Or.inl rfl
  | tail _ tick ih =>
    rcases quietTick_locks tick with rfl | locked
    · exact ih
    · exact Or.inr locked

theorem interrupted_recovery (interrupted : Program.Steps server.law (evaluate server.host).run start earlier rest left)
    (recovering : counted? earlier = some (counter .confirmed)) : left = start ∨ server.Lifted start left := by
  rcases evaluate_steps interrupted with ⟨_, same⟩ | ⟨diagnosis, counted, acted⟩
  · exact Or.inl same
  have confirmed : diagnosis.verdict = .confirmed :=
    counter_injective (Option.some.inj (counted.symm.trans recovering))
  exact act_confirmed_moves confirmed acted

theorem confirmed_tick (heeds : server.heeds = true)
    (ran : Program.Runs server.law (evaluate server.host).run before trace outcome after)
    (confirmed : counted? trace = some (counter .confirmed))
    (smooth : ∀ event ∈ trace, ¬event.stops ∧ event.failure? = none) (unheld : before.markers.readonlyLock = none) :
    server.Recovered after ↔ before.markers.zombieLock ≠ none ∨ server.Writable before := by
  rcases evaluate_steps ran with ⟨uncounted, _⟩ | ⟨diagnosis, counted, acted⟩
  · rw [uncounted] at confirmed
    cases confirmed
  have confirmed : diagnosis.verdict = .confirmed :=
    counter_injective (Option.some.inj (counted.symm.trans confirmed))
  have smooth : ∀ event ∈ sinceCounted trace, Smooth event :=
    fun event member => smooth event (mem_of_sinceCounted event member)
  have ended := (holds_act_confirmed smooth_even confirmed).run.steps (acted.restrict smooth)
  cases outcome with
  | error failure => exact absurd ended.2 smooth_untroubled
  | ok diagnosed =>
    change if before.markers.zombieLock = none then after = before else server.Lifted before after ∧
      (before.markers.readonlyLock = none → server.heeds = true → server.Writable after) at ended
    by_cases lock : before.markers.zombieLock = none
    · rw [if_pos lock] at ended
      subst ended
      simp [Server.Recovered, lock]
    · rw [if_neg lock] at ended
      exact iff_of_true ⟨ended.1.unlocked, ended.2 unheld heeds⟩ (Or.inl lock)

/-- The next confirmed evaluation makes up for a recovery that was cut short exactly if there is
nothing left to do, or a zombie lock to do it for. -/
theorem recovery_retried_iff (heeds : server.heeds = true) (retry : Retry server start left before after) :
    (left = start ∨ server.Lifted start left) ∧
      (server.Recovered after ↔ left = start ∨ server.Writable left ∨ before.markers.zombieLock ≠ none) := by
  obtain ⟨earlier, rest, interrupted, recovering⟩ := retry.interrupted
  obtain ⟨trace, outcome, ran, confirmed, smooth⟩ := retry.confirmed
  refine ⟨interrupted_recovery interrupted recovering, ?_⟩
  rw [confirmed_tick heeds ran confirmed smooth retry.unheld]
  rcases quietTicks_lock retry.meanwhile with rfl | relocked
  · constructor
    · intro ready
      rcases ready with lock | writable
      · exact Or.inr (Or.inr lock)
      · exact Or.inr (Or.inl writable)
    · intro condition
      rcases condition with rfl | writable | lock
      · exact Or.inl retry.locked
      · exact Or.inr writable
      · exact Or.inl lock
  · exact iff_of_true (Or.inl relocked) (Or.inr (Or.inr relocked))

private def calmPair : Playbook where
  server := ⟨"host-1", ["postgres", "app"], true⟩
  members := [⟨1, "host-1", "default", true, .primary⟩, ⟨2, "host-2", "default", true, .standby⟩]

private def fencedPair : Ground where
  markers := { zombieLock := some "" }
  readonly := fun database => database == "app"

private def tick (playbook : Playbook) (ground : Ground) := playbook.plays (evaluate "host-1").run ground

private theorem retry_of_ticks (playbook : Playbook) (same : playbook.server = calmPair.server)
    (recovering : counted? (tick playbook fencedPair).1 = some (counter .confirmed))
    (unheld : (tick playbook fencedPair).2.2.markers.readonlyLock = none)
    (ended : (tick calmPair (tick playbook fencedPair).2.2).2.1 = .done (.ok (some ⟨.confirmed, "host-1"⟩)))
    (confirmed : counted? (tick calmPair (tick playbook fencedPair).2.2).1 = some (counter .confirmed))
    (smooth : ∀ event ∈ (tick calmPair (tick playbook fencedPair).2.2).1, ¬event.stops ∧ event.failure? = none) :
    Retry calmPair.server fencedPair (tick playbook fencedPair).2.2 (tick playbook fencedPair).2.2
      (tick calmPair (tick playbook fencedPair).2.2).2.2 := by
  have interrupted := playbook.plays_steps (evaluate "host-1").run fencedPair
  have ran := calmPair.plays_runs ended
  rw [same] at interrupted
  exact ⟨by simp [fencedPair], ⟨_, _, interrupted, recovering⟩, .refl, unheld, _, _, ran, confirmed, smooth⟩

/-- The node crashes while it tells its peer, with all its databases released. -/
private def lateCrash : Playbook := { calmPair with silent := [.setPeerReadonly "host-2" false] }

theorem late_crash_recovered : ∃ (server : Server) (start left before after : Ground), server.heeds = true ∧
    Retry server start left before after ∧ server.Recovered after := by
  have retry := retry_of_ticks lateCrash rfl (by decide +kernel) (by decide +kernel) (by cbv)
    (by decide +kernel) (by decide +kernel)
  have released : calmPair.server.Writable (tick lateCrash fencedPair).2.2 := by
    unfold Server.Writable
    decide +kernel
  exact ⟨_, _, _, _, _, rfl, retry, (recovery_retried_iff rfl retry).2.mpr (Or.inr (Or.inl released))⟩

/-- The databases cannot be listed once, just after the lock is gone. -/
private def unlisted : Playbook := { calmPair with broken := [.databases "host-1"] }

theorem unlisted_databases_forgotten : ∃ (server : Server) (start left before after : Ground), server.heeds = true ∧
    Retry server start left before after ∧ ¬server.Recovered after := by
  have retry := retry_of_ticks unlisted rfl (by decide +kernel) (by decide +kernel) (by cbv)
    (by decide +kernel) (by decide +kernel)
  have kept : (tick calmPair (tick unlisted fencedPair).2.2).2.2.readonly "app" = true := by decide +kernel
  have user : "app" ∈ calmPair.server.userDatabases := by decide +kernel
  refine ⟨_, _, _, _, _, rfl, retry, fun recovered => ?_⟩
  rw [recovered.2 "app" user] at kept
  cases kept

end QuorumWarden
