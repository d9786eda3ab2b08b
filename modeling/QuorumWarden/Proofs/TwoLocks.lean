import Mathlib
import QuorumWarden.Proofs.PlayedGround
import QuorumWarden.Proofs.QuarantineRules

/-! Fencing operations on one node, one after another in any order and each cut short anywhere.
Databases are made writable only while no lock is there, and a fence that was reported up stands
until the last lock goes. -/

namespace QuorumWarden

open QuorumWarden.Action Relation

inductive LockOperation where
  | quarantine (discovered : String)
  | clearQuarantine
  | enableReadonly
  | disableReadonly
  deriving DecidableEq, Repr

namespace LockOperation

/-- All that is kept of what an operation reports is whether it failed. -/
def action (host : String) : LockOperation → Action Unit
  | quarantine discovered => do let _ ← Quarantine.engage host ⟨host⟩ discovered
  | clearQuarantine => do let _ ← Quarantine.lift host ⟨host⟩
  | enableReadonly => do let _ ← Readonly.enable host
  | disableReadonly => do let _ ← Readonly.disable host

def Fences : LockOperation → Prop
  | quarantine _ | enableReadonly => True
  | clearQuarantine | disableReadonly => False

end LockOperation

structure LockTask where
  operation : LockOperation
  rest : Procedure (Outcome Unit)

/-- A node, at work on one operation at most. -/
structure Situation where
  ground : Ground
  task : Option LockTask := none

namespace Situation

/-- What may happen next. An operation is left when it has ended, and may be left before: the
node crashed and was started again on the same markers. -/
inductive Step (server : Server) : Situation → Situation → Prop where
  | begin {ground} (operation : LockOperation) :
      Step server ⟨ground, none⟩ ⟨ground, some ⟨operation, (operation.action server.host).run⟩⟩
  | answer {operation request next before reply after} (answered : server.law request before reply after) :
      Step server ⟨before, some ⟨operation, .ask request next⟩⟩ ⟨after, some ⟨operation, next reply⟩⟩
  | leave {ground task} : Step server ⟨ground, some task⟩ ⟨ground, none⟩

def LockedStep (server : Server) (before after : Situation) : Prop :=
  Step server before after ∧ ¬before.ground.Unlocked

/-- The operation under way makes this call now. Exchanges side by side might make any call. -/
def Issues (made : Call) (now : Situation) : Prop :=
  ∃ task ∈ now.task, ∃ request ∈ task.rest.pending,
    match request with
    | .prompt _ => False
    | .await wait | .awaitOrStop wait => wait = .call made ∨ ∃ heard strands, wait = .gather heard strands

/-- An operation that fences has just ended well. -/
def Fencing (now : Situation) : Prop :=
  ∃ operation : LockOperation, operation.Fences ∧ now.task = some ⟨operation, .done (.ok ())⟩

/-- Whatever is under way is careful to its end, and if it is to fence, it does. -/
def Disciplined (server : Server) (now : Situation) : Prop :=
  ∀ task ∈ now.task, Program.Holds (server.law.restrict fun _ => True) (Careful server)
    (fun outcome after => outcome = .ok () → task.operation.Fences → ¬after.Unlocked ∧ server.Readonly after)
    task.rest now.ground

variable {server : Server} {before after now : Situation}

private theorem holds_action (operation : LockOperation) (ground : Ground) :
    Action.Holds (server.law.restrict fun _ => True) (Careful server)
      (fun _ after => operation.Fences → ¬after.Unlocked ∧ server.Readonly after) (fun _ _ => True)
      (operation.action server.host) ground := by
  cases operation with
  | quarantine discovered =>
    refine Holds.bind ((Quarantine.holds_engage evenhanded_all discovered).mono (fun _ _ asked => asked.1) ?_
      fun _ _ _ => trivial)
    intro _ after ⟨_, locked, readonly⟩
    exact Holds.pure fun _ => ⟨fun unlocked => locked unlocked.1, readonly⟩
  | clearQuarantine =>
    refine Holds.bind ((Quarantine.holds_lift evenhanded_all).mono (fun _ _ asked => asked.1) ?_ fun _ _ _ => trivial)
    exact fun _ _ _ => Holds.pure False.elim
  | enableReadonly =>
    refine Holds.bind ((Readonly.holds_enable evenhanded_all).mono (fun _ _ asked => asked) ?_ fun _ _ _ => trivial)
    intro _ after ⟨locked, readonly⟩
    exact Holds.pure fun _ => ⟨fun unlocked => locked unlocked.2, readonly⟩
  | disableReadonly =>
    refine Holds.bind ((Readonly.holds_disable evenhanded_all).mono (fun _ _ asked => asked) ?_ fun _ _ _ => trivial)
    exact fun _ _ _ => Holds.pure False.elim

theorem disciplined_step (step : Step server before after) (disciplined : Disciplined server before) :
    Disciplined server after := by
  cases step with
  | begin operation =>
    rintro _ ⟨⟩
    refine Program.Holds.mono (holds_action operation _).run (fun _ _ asked => asked) ?_
    intro _ after ended same
    subst same
    exact ended
  | answer answered =>
    rintro _ ⟨⟩
    exact (disciplined _ rfl).2 _ _ ⟨answered, trivial⟩
  | leave => rintro _ ⟨⟩

theorem disciplined_run {ground : Ground} (run : ReflTransGen (Step server) ⟨ground, none⟩ now) :
    Disciplined server now := by
  induction run with
  | refl => rintro _ ⟨⟩
  | tail _ step ih => exact disciplined_step step ih

theorem careful_release (disciplined : Disciplined server now) {host database : String}
    (issues : now.Issues (.setReadonly host database false)) :
    now.ground.Unlocked ∧ database ∈ server.userDatabases := by
  obtain ⟨task, busy, request, pending, making⟩ := issues
  have careful := (disciplined task busy).pending request pending
  cases request with
  | prompt asked => exact making.elim
  | await wait | awaitOrStop wait =>
    obtain ⟨made, same, released⟩ := careful
    rcases making with making | ⟨heard, strands, making⟩
    · rw [same] at making
      cases making
      exact released host database rfl
    · rw [same] at making
      cases making

theorem readonly_step (disciplined : Disciplined server before) (step : LockedStep server before after)
    (readonly : server.Readonly before.ground) : server.Readonly after.ground := by
  obtain ⟨step, locked⟩ := step
  cases step with
  | begin => exact readonly
  | answer answered => exact (disciplined _ rfl).1.keeps_readonly locked readonly answered
  | leave => exact readonly

/-- Writes are let in again only without a lock and only to user databases, and what was fenced
stays read-only for as long as a lock is there. -/
theorem release_discipline {ground : Ground} (run : ReflTransGen (Step server) ⟨ground, none⟩ now) :
    (∀ host database, now.Issues (.setReadonly host database false) →
      now.ground.Unlocked ∧ Readonly.isSystemDatabase database = false) ∧
    (now.Fencing → ∀ later, ReflTransGen (LockedStep server) now later → server.Readonly later.ground) := by
  have disciplined := disciplined_run run
  constructor
  · intro host database issues
    obtain ⟨unlocked, user⟩ := careful_release disciplined issues
    simp only [Server.userDatabases, List.mem_filter, Bool.not_eq_true'] at user
    exact ⟨unlocked, user.2⟩
  · intro fencing later onward
    obtain ⟨operation, fences, ended⟩ := fencing
    obtain ⟨_, readonly⟩ := disciplined _ ended rfl fences
    have kept : Disciplined server later ∧ server.Readonly later.ground := by
      induction onward with
      | refl => exact ⟨disciplined, readonly⟩
      | tail _ step ih => exact ⟨disciplined_step step.1 ih.1, readonly_step ih.1 step ih.2⟩
    exact kept.2

theorem run_of_steps {operation : LockOperation} {program rest : Procedure (Outcome Unit)} {ground left : Ground}
    {trace : List (Program.Event Request.Reply)} (steps : Program.Steps server.law program ground trace rest left) :
    ReflTransGen (Step server) ⟨ground, some ⟨operation, program⟩⟩ ⟨left, some ⟨operation, rest⟩⟩ := by
  induction steps with
  | refl => exact .refl
  | ask answered _ ih => exact .head (.answer answered) ih

private def calm : Playbook := { server := ⟨"host-1", ["postgres", "app"], true⟩ }

private def halted : Playbook := { calm with silent := [.setReadonly "host-1" "app" false] }

private def enabled : Procedure (Outcome Unit) × Ground :=
  (calm.plays (LockOperation.enableReadonly.action "host-1").run {}).2

private def clearing : Procedure (Outcome Unit) × Ground :=
  (halted.plays (LockOperation.clearQuarantine.action "host-1").run {}).2

/-- A fence that goes up and loses its lock, and a release under no lock. -/
theorem enabled_then_disabled :
    (∃ now, ReflTransGen (Step calm.server) ⟨{}, none⟩ now ∧ now.Issues (.setReadonly "host-1" "app" false) ∧
      now.ground.Unlocked) ∧
    ∃ now later, ReflTransGen (Step calm.server) ⟨{}, none⟩ now ∧ now.Fencing ∧
      ReflTransGen (LockedStep calm.server) now later ∧ later.ground.Unlocked ∧
      calm.server.Readonly later.ground := by
  constructor
  · have run : ReflTransGen (Step calm.server) ⟨{}, none⟩ ⟨clearing.2, some ⟨.clearQuarantine, clearing.1⟩⟩ :=
      .head (.begin .clearQuarantine) (run_of_steps (halted.plays_steps _ _))
    have pending : clearing.1.pending = some (.awaitOrStop (.call (.setReadonly "host-1" "app" false))) := by cbv
    have issues : Issues (.setReadonly "host-1" "app" false) ⟨clearing.2, some ⟨.clearQuarantine, clearing.1⟩⟩ :=
      ⟨_, rfl, _, pending, Or.inl rfl⟩
    exact ⟨_, run, issues, ((release_discipline run).1 _ _ issues).1⟩
  · have run : ReflTransGen (Step calm.server) ⟨{}, none⟩ ⟨enabled.2, some ⟨.enableReadonly, enabled.1⟩⟩ :=
      .head (.begin .enableReadonly) (run_of_steps (calm.plays_steps _ _))
    have ended : enabled.1 = .done (.ok ()) := by cbv
    have locked : ¬enabled.2.Unlocked := by decide +kernel
    have fencing : Fencing ⟨enabled.2, some ⟨.enableReadonly, enabled.1⟩⟩ :=
      ⟨.enableReadonly, trivial, by rw [ended]⟩
    have dropped : calm.server.law (.prompt (.removeMarker .readonlyLock)) enabled.2 (.ok ())
        (enabled.2.setMarker .readonlyLock none) := Or.inr rfl
    have onward : ReflTransGen (LockedStep calm.server) ⟨enabled.2, some ⟨.enableReadonly, enabled.1⟩⟩
        ⟨enabled.2.setMarker .readonlyLock none, some ⟨.disableReadonly, _⟩⟩ :=
      .head ⟨.leave, locked⟩ (.head ⟨.begin .disableReadonly, locked⟩ (.single ⟨.answer dropped, locked⟩))
    exact ⟨_, _, run, fencing, onward, by decide +kernel, (release_discipline run).2 fencing _ onward⟩

end Situation

end QuorumWarden
