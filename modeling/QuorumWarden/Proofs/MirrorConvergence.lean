import Mathlib
import QuorumWarden.Proofs.FenceOperations
import QuorumWarden.Proofs.PlayedGround
import QuorumWarden.Watch.ReadonlyMirror

/-! Where a pass of the mirror leaves the flags of a standby. It compares the primary's flag with
one flag for all databases, so databases that do not agree look writable to it. -/

namespace QuorumWarden

open QuorumWarden.Action

namespace Program.Event

/-- The flag that a primary told. -/
def told? : Program.Event Request.Reply → Option Bool
  | ⟨.await (.call (.peerReadonly _)), .ok told⟩ => some told
  | ⟨.awaitOrStop (.call (.peerReadonly _)), some (.ok told)⟩ => some told
  | _ => none

def Reports (flag : Bool) (event : Program.Event Request.Reply) : Prop := ∀ told ∈ event.told?, told = flag

instance (flag : Bool) (event : Program.Event Request.Reply) : Decidable (event.Reports flag) :=
  inferInstanceAs (Decidable (∀ told ∈ event.told?, told = flag))

end Program.Event

theorem reports_even (flag : Bool) : Evenhanded (Program.Event.Reports flag) := by
  intro wait reply reports
  cases wait with
  | call made =>
    cases made with
    | peerReadonly peer =>
      cases reply with
      | ok told => exact reports
      | error failure => exact reports
    | _ => exact reports
  | _ => exact reports

variable {server : Server} {admits : Program.Event Request.Reply → Prop} {ground : Ground} {α : Type}
  {good : α → Ground → Prop} {action : Action α}

namespace Readonly

/-- The answer is whether all are read-only, as far as the ground goes. -/
theorem holds_allReadonly (databases : List String) :
    Holds (server.law.restrict admits) (fun _ _ => True)
      (fun flag after => after = ground ∧ (flag = true ↔ ∀ database ∈ databases, ground.readonly database = true))
      (fun _ _ => True) (allReadonly ⟨server.host⟩ databases) ground := by
  induction databases with
  | nil => exact Holds.pure ⟨rfl, by simp⟩
  | cons database databases ih =>
    refine Holds.bind (Holds.request (.readonly server.host database) trivial ?_ fun _ _ _ => trivial)
    intro flag after answered
    obtain ⟨⟨rfl, told⟩, _⟩ := answered
    have told := told rfl flag rfl
    cases flag with
    | true => exact ih.imp fun _ _ ⟨same, iff⟩ => ⟨same, by simpa [← told] using iff⟩
    | false => exact Holds.pure ⟨rfl, by simp [← told]⟩

theorem holds_localState :
    Holds (server.law.restrict admits) (fun _ _ => True)
      (fun flag after => after = ground ∧ (flag = true ↔ server.Readonly ground)) (fun _ _ => True)
      (localState ⟨server.host⟩) ground :=
  Holds.bind (holds_userDatabases trivial (holds_allReadonly _) fun _ _ => trivial)

end Readonly

def Server.Flagged (server : Server) (flag : Bool) (ground : Ground) : Prop :=
  ∀ database ∈ server.userDatabases, ground.readonly database = flag

/-- The databases agree with each other, or they are to be made read-only. -/
def Server.Mirrorable (server : Server) (flag : Bool) (ground : Ground) : Prop :=
  flag = true ∨ server.Readonly ground ∨ server.Writable ground

namespace ReadonlyMirror

theorem holds_freelyGuarded (even : Evenhanded admits)
    (holds : Holds (server.law.restrict admits) (fun _ _ => True) good (fun _ _ => True) action ground) :
    Holds (server.law.restrict admits) (fun _ _ => True) good (fun _ _ => True) (guarded action) ground := by
  refine Holds.guarded ⟨fun _ _ _ => trivial, ?_, fun _ _ _ _ _ => trivial⟩ trivial ?_ holds
  · exact fun wait _ reply _ ⟨answered, admitted⟩ => ⟨answered, even wait reply admitted⟩
  · exact fun _ _ ⟨same, _⟩ => ⟨same, fun _ => trivial⟩

theorem holds_survey (even : Evenhanded admits) :
    Holds (server.law.restrict admits) (fun _ _ => True) (fun found after => found.1 = ⟨server.host⟩ ∧ after = ground)
      (fun _ _ => True) (guarded (Node.survey server.host)) ground := by
  apply holds_freelyGuarded even
  refine Holds.bind (Holds.inContext (Holds.bind (Holds.request (.connect server.host) trivial ?_ fun _ _ _ => trivial)))
  rintro _ _ ⟨rfl, _⟩
  refine Holds.pure (Holds.bind (Holds.inContext (Holds.bind (Holds.request (.listMembers server.host) trivial ?_
    fun _ _ _ => trivial))))
  rintro _ _ ⟨rfl, _⟩
  exact Holds.pure (Holds.pure ⟨rfl, rfl⟩)

theorem holds_polled (peer : String) (wanted : Bool) :
    Holds (server.law.restrict (Program.Event.Reports wanted)) (fun _ _ => True)
      (fun told after => told = wanted ∧ after = ground) (fun _ _ => True) (guarded (peerReadonly peer)) ground := by
  apply holds_freelyGuarded (reports_even wanted)
  refine Holds.request (.peerReadonly peer) trivial ?_ fun _ _ _ => trivial
  exact fun told _ answered => ⟨answered.2 told rfl, answered.1⟩

/-- A pass that writes nothing because the flags look the same. -/
theorem flagged_skipped_iff {wanted current : Bool} (aggregated : current = true ↔ server.Readonly ground)
    (same : wanted = current) : server.Flagged wanted ground ↔ server.Mirrorable wanted ground := by
  subst same
  cases wanted with
  | true => exact iff_of_true (aggregated.mp rfl) (Or.inl rfl)
  | false =>
    have mixed : ¬server.Readonly ground := fun readonly => by simpa using aggregated.mpr readonly
    simp [Server.Mirrorable, mixed, Server.Flagged, Server.Writable]

theorem holds_databases (even : Evenhanded admits) :
    Holds (server.law.restrict admits) (fun _ _ => True) (fun names after => names = server.userDatabases ∧ after = ground)
      (fun _ _ => True) (guarded (Readonly.userDatabases ⟨server.host⟩)) ground :=
  holds_freelyGuarded even (Readonly.holds_userDatabases trivial ⟨rfl, rfl⟩ fun _ _ => trivial)

theorem holds_written (even : Evenhanded admits) (heeds : server.heeds = true) {wanted : Bool}
    (mirrorable : server.Mirrorable wanted ground) :
    Holds (server.law.restrict admits) (fun _ _ => True)
      (fun found after => ∀ flag, found = some flag → flag = wanted ∧
        (server.Flagged wanted after ↔ server.Mirrorable wanted ground))
      (fun _ _ => True) (do
        let _ ← guarded (Readonly.setLocal ⟨server.host⟩ wanted)
        Procedure.count .readonlyMirrorChanges
        return some wanted) ground := by
  refine Holds.bind ((Readonly.holds_setLocalGuarded even wanted ground).mono (fun _ _ _ => trivial) ?_
    fun _ _ _ => trivial)
  rintro _ after ⟨_, _, set⟩
  refine Holds.bind (holds_count trivial (Holds.pure ?_))
  rintro _ ⟨⟩
  exact ⟨rfl, iff_of_true (set heeds) mirrorable⟩

theorem mirrorable_of_differs {wanted current : Bool} (aggregated : current = true ↔ server.Readonly ground)
    (differs : ¬wanted = current) : server.Mirrorable wanted ground := by
  cases wanted with
  | true => exact Or.inl rfl
  | false => exact Or.inr (Or.inl (aggregated.mp (by simpa using differs)))

theorem holds_sync (heeds : server.heeds = true) (unlocked : ground.markers.zombieLock = none) (wanted : Bool) :
    Holds (server.law.restrict (Program.Event.Reports wanted)) (fun _ _ => True)
      (fun found after => ∀ flag, found = some flag → flag = wanted ∧
        (server.Flagged wanted after ↔ server.Mirrorable wanted ground))
      (fun _ _ => True) (sync server.host) ground := by
  have even := reports_even wanted
  refine (holds_survey even).andThen ?_
  rintro ⟨_, topology⟩ ground ⟨rfl, rfl⟩
  refine Holds.bind (Holds.liftExcept (fun row _ => ?_) fun _ _ => trivial)
  split
  · exact Holds.pure (by simp)
  cases topology.primary? with
  | none => exact Holds.throw trivial
  | some primary =>
    refine Holds.bind (Holds.inContext ((holds_polled primary.hostname wanted).imp ?_))
    rintro wanted ground ⟨rfl, rfl⟩
    refine (holds_databases even).andThen ?_
    rintro _ ground ⟨rfl, rfl⟩
    split
    next none =>
      have none : server.userDatabases = [] := List.isEmpty_iff.mp none
      refine Holds.pure ?_
      rintro _ ⟨⟩
      exact ⟨rfl, by simp [Server.Flagged, Server.Mirrorable, Server.Readonly, none]⟩
    next =>
      refine (holds_freelyGuarded even Readonly.holds_localState).andThen ?_
      rintro current ground ⟨rfl, aggregated⟩
      split
      next same =>
        have same := beq_iff_eq.mp same
        refine Holds.pure ?_
        rintro _ ⟨⟩
        exact ⟨same.symm, flagged_skipped_iff aggregated same⟩
      next differs =>
        have mirrorable := mirrorable_of_differs aggregated (by simpa using differs)
        have written := holds_written even heeds mirrorable
        cases wanted with
        | true => exact Holds.bind (Holds.pure written)
        | false =>
          refine Holds.bind (holds_holds trivial ?_ fun _ _ => trivial)
          rw [Markers.get, unlocked]
          exact written

/-- A pass on a standby without a zombie lock answers the primary's flag, and leaves all databases
with that flag exactly if they agreed before or were to be made read-only. -/
theorem mirrored_iff (heeds : server.heeds = true) {before after : Ground} (unlocked : before.markers.zombieLock = none)
    {trace : List (Program.Event Request.Reply)} {wanted flag : Bool}
    (ran : Program.Runs server.law (sync server.host).run before trace (.ok (some flag)) after)
    (reported : ∀ event ∈ trace, event.Reports wanted) :
    flag = wanted ∧ (server.Flagged wanted after ↔ server.Mirrorable wanted before) :=
  (holds_sync heeds unlocked wanted).run.steps (ran.restrict reported) flag rfl

private def standby : Playbook where
  server := ⟨"host-2", ["postgres", "app", "billing"], true⟩
  members := [⟨1, "host-1", "default", true, .primary⟩, ⟨2, "host-2", "default", true, .standby⟩]

private def pass (readonly : List String) := standby.plays (sync "host-2").run { readonly := fun name => readonly.contains name }

theorem agreeing_standby_mirrored : ∃ (server : Server) (before after : Ground)
    (trace : List (Program.Event Request.Reply)), server.heeds = true ∧ before.markers.zombieLock = none ∧
    Program.Runs server.law (sync server.host).run before trace (.ok (some false)) after ∧
    (∀ event ∈ trace, event.Reports false) ∧ server.Readonly before ∧ server.Flagged false after := by
  have ran := standby.plays_runs (show (pass ["app", "billing"]).2.1 = .done (.ok (some false)) by cbv)
  have reported : ∀ event ∈ (pass ["app", "billing"]).1, event.Reports false := by decide +kernel
  have readonly : standby.server.Readonly { readonly := fun name => ["app", "billing"].contains name } := by
    unfold Server.Readonly
    decide +kernel
  exact ⟨_, _, _, _, rfl, rfl, ran, reported, readonly, (mirrored_iff rfl rfl ran reported).2.mpr (Or.inr (Or.inl readonly))⟩

/-- One database of two is still read-only: the node looks writable, and that one stays as it is. -/
theorem mixed_standby_stays_mixed : ∃ (server : Server) (before after : Ground)
    (trace : List (Program.Event Request.Reply)), server.heeds = true ∧ before.markers.zombieLock = none ∧
    server.userDatabases ≠ [] ∧ Program.Runs server.law (sync server.host).run before trace (.ok (some false)) after ∧
    (∀ event ∈ trace, event.Reports false) ∧ ¬server.Flagged false after := by
  have ran := standby.plays_runs (show (pass ["app"]).2.1 = .done (.ok (some false)) by cbv)
  have reported : ∀ event ∈ (pass ["app"]).1, event.Reports false := by decide +kernel
  have user : "app" ∈ standby.server.userDatabases := by decide +kernel
  have kept : (pass ["app"]).2.2.readonly "app" = true := by decide +kernel
  refine ⟨_, _, _, _, rfl, rfl, List.ne_nil_of_mem user, ran, reported, fun flagged => ?_⟩
  have released : (pass ["app"]).2.2.readonly "app" = false := flagged "app" user
  rw [kept] at released
  cases released

end ReadonlyMirror

end QuorumWarden
