import Mathlib
import QuorumWarden.Proofs.PlayedGround
import QuorumWarden.Proofs.QuarantineRules
import QuorumWarden.Proofs.RecordedFence

/-! What lifting a quarantine gives back when nothing fails. The locks and the databases are as they
were before, but nobody points the pooler back. -/

namespace QuorumWarden

open QuorumWarden.Action

/-- Where the pooler sends clients: to the last address it was given. -/
def upstream (start : String) (trace : List (Program.Event Request.Reply)) : String :=
  (redirects (trace.filterMap Program.Event.deed?)).getLast?.getD start

theorem upstream_append (start : String) (first second : List (Program.Event Request.Reply)) :
    upstream start (first ++ second) = upstream (upstream start first) second := by
  unfold upstream
  rw [List.filterMap_append, redirects_append, List.getLast?_append, Option.getD_or]

variable {server : Server} {ground before between after : Ground} {trace quiet : List (Program.Event Request.Reply)}

theorem Careful.deed {event : Program.Event Request.Reply} (careful : Careful server event.request ground)
    (unstopped : ¬event.stops) : ∃ deed, event.deed? = some deed := by
  obtain ⟨request, reply⟩ := event
  cases request with
  | prompt asked => exact ⟨_, rfl⟩
  | await wait =>
    obtain ⟨made, rfl, _⟩ := careful
    exact ⟨_, rfl⟩
  | awaitOrStop wait =>
    obtain ⟨made, rfl, _⟩ := careful
    cases reply with
    | none => exact absurd rfl unstopped
    | some reply => exact ⟨_, rfl⟩

/-- Whatever a careful program asks for may succeed. -/
theorem Careful.answered {request : Request} (careful : Careful server request ground) :
    (server.law.restrict Smooth).Answers request ground := by
  let playbook : Playbook := { server }
  have called (made : Call) : ∃ value after, server.call made ground (.ok value) after := by
    have lawful : server.call made ground (playbook.done made ground).1 (playbook.done made ground).2 :=
      Playbook.done_lawful made
    cases made <;> exact ⟨_, _, lawful⟩
  cases request with
  | prompt asked =>
    cases asked with
    | stopRequested => exact ⟨false, ground, rfl, by simp [Program.Event.stops], rfl⟩
    | readMarker marker => exact ⟨.ok _, ground, Ground.prompt_held rfl, by simp [Program.Event.stops], rfl⟩
    | writeMarker marker text => exact ⟨.ok (), _, .inr rfl, by simp [Program.Event.stops], rfl⟩
    | removeMarker marker => exact ⟨.ok (), _, .inr rfl, by simp [Program.Event.stops], rfl⟩
    | timer | steadyClock => exact ⟨0, ground, rfl, by simp [Program.Event.stops], rfl⟩
    | wallClock => exact ⟨⟨0, 0⟩, ground, rfl, by simp [Program.Event.stops], rfl⟩
    | frequency => exact ⟨⟨0⟩, ground, rfl, by simp [Program.Event.stops], rfl⟩
    | requestStop | count | notice => exact ⟨(), ground, rfl, by simp [Program.Event.stops], rfl⟩
  | await wait =>
    obtain ⟨made, rfl, _⟩ := careful
    obtain ⟨value, after, lawful⟩ := called made
    exact ⟨.ok value, after, lawful, by simp [Program.Event.stops], rfl⟩
  | awaitOrStop wait =>
    obtain ⟨made, rfl, _⟩ := careful
    obtain ⟨value, after, lawful⟩ := called made
    exact ⟨some (.ok value), after, lawful, by simp [Program.Event.stops], rfl⟩

theorem Fence.Looked.aside {fence : FenceState} {looks : List Deed} (looked : Looked fence looks) :
    ∀ deed ∈ looks, deed.Aside := by
  cases looked <;> simp

theorem Readonly.LetsIn.redirects {host : String} {deeds : List Deed} (letsIn : LetsIn host deeds) : redirects deeds = [] := by
  obtain ⟨ahead, names, behind, rfl, outside⟩ := letsIn
  have aside : ∀ deed ∈ ahead ++ behind, deed.Aside := fun deed member => (outside deed member).aside
  obtain ⟨front, back⟩ := List.forall_mem_append.mp aside
  rw [redirects_behind front, redirects_listing, redirects_behind (flagDeeds_aside host false _), redirects_aside back]

namespace Quarantine

theorem engage_upstream {discovered : String} {found : Quarantine}
    (engaged : Program.Runs server.law (engage server.host ⟨server.host⟩ discovered).run before trace (.ok found) after)
    (unstopped : ∀ event ∈ trace, ¬event.stops) (start : String) :
    upstream start trace =
      if Text.trim discovered = "" ∨ Text.trim discovered = server.host then start else Text.trim discovered := by
  have told : Transcript trace (trace.filterMap Program.Event.deed?) := by
    apply Transcript.of_deeds
    intro event member
    have restricted := engaged.restrict fun _ _ => trivial
    obtain ⟨_, careful, _⟩ := (holds_engage evenhanded_all discovered).run.asked restricted event member
    exact careful.deed (unstopped event member)
  obtain ⟨deeds, recorded⟩ := Surroundings.steps_recorded server.within_openPorts [] engaged
  obtain ⟨added, grown, _, _, redirected⟩ := engaged_recorded ⟨_, recorded⟩
  have same : added = trace.filterMap Program.Event.deed? :=
    grown.symm.trans (Surroundings.steps_transcribed recorded told)
  rw [upstream, ← same, redirected]
  split <;> rfl

theorem lift_upstream {released : Bool}
    (lifted : Program.Runs server.law (lift server.host ⟨server.host⟩).run before trace (.ok released) after)
    (start : String) : upstream start trace = start := by
  obtain ⟨deeds, told, fence, looks, rest, rfl, looked, _, letsIn⟩ := transcript_lift lifted.freed
  have unmoved : redirects rest = [] := by
    cases released with
    | true => exact Readonly.LetsIn.redirects letsIn
    | false => exact (congrArg redirects letsIn).trans rfl
  have ahead : ∀ deed ∈ ([.prompt (.removeMarker .zombieLock) (.ok ()), .prompt (.count .quarantineClears) ()] : List Deed),
      deed.Aside := by simp
  have quiet : redirects (trace.filterMap Program.Event.deed?) = [] := by
    rw [told.filterMap]
    exact (redirects_behind ahead).trans ((redirects_behind looked.aside).trans unmoved)
  rw [upstream, quiet]
  rfl

theorem smooth_unhindered (heeds : server.heeds = true) : ¬Hindered server Smooth := by
  intro hindered
  apply smooth_untroubled
  cases hindered with
  | heedless heedless =>
    rw [heeds] at heedless
    cases heedless
  | stopped stopped =>
    obtain ⟨event, smooth, stops⟩ := stopped
    exact absurd stops smooth.1
  | database failed => exact Readonly.Blamed.troubled (Or.inr failed)
  | marker text failure failed => exact ⟨_, failed, Or.inr (Option.some_ne_none failure)⟩
  | pooler address failure _ failed => exact ⟨_, failed, Or.inr (Option.some_ne_none failure)⟩

/-- A quarantine in which nothing fails does not fail. -/
theorem holds_engageSmooth (heeds : server.heeds = true) (discovered : String) :
    Holds (server.law.restrict Smooth) (fun _ _ => True)
      (fun _ after => server.Engaged ground after ∧ server.Readonly after) (fun _ _ => False)
      (engage server.host ⟨server.host⟩ discovered) ground := by
  rw [engage_eq]
  refine Holds.bind ((holds_redirect smooth_even server.host (Text.trim discovered)).mono (fun _ _ _ => trivial) ?_ ?_)
  · intro _ _ same
    subst same
    refine Holds.bind (Holds.inContext (holds_write trivial ?_ fun failure _ smooth _ => ?_))
    · refine Holds.bind (Holds.inContext ((Readonly.holds_setLocalGuarded smooth_even true _).mono
        (fun _ _ _ => trivial) ?_ fun _ _ failed => smooth_untroubled failed.2.troubled))
      intro _ _ ended
      obtain ⟨rfl, toward, set⟩ := ended
      refine Holds.bind ((Readonly.holds_broadcast smooth_even true).mono (fun _ _ _ => trivial) ?_
        fun _ _ failed => smooth_untroubled failed.2.troubled)
      intro _ _ same
      subst same
      refine Holds.bind ((Readonly.holds_verifyGuarded smooth_even _).mono (fun _ _ _ => trivial) ?_ ?_)
      · intro _ _ ⟨same, _⟩
        subst same
        exact Holds.bind (holds_count trivial (Holds.pure ⟨⟨_, toward⟩, set heeds⟩))
      · rintro _ _ ⟨_, blamed | ⟨database, member, writable⟩⟩
        · exact smooth_untroubled blamed.troubled
        · rw [set heeds database member] at writable
          cases writable
    · exact smooth_untroubled ⟨_, smooth, Or.inr (Option.some_ne_none failure)⟩
  · exact fun _ _ failed => smooth_unhindered heeds failed.2

theorem lifted_engaged (engaged : server.Engaged before between) (lifted : server.Lifted between after)
    (unlocked : before.Unlocked) : after.markers = before.markers := by
  obtain ⟨text, toward⟩ := engaged
  have unheld : before.markers.zombieLock = none := unlocked.1
  rw [lifted.markers, Ground.setMarker, toward.markers, Ground.setMarker]
  obtain ⟨⟨readonlyLock, zombieLock, registration⟩, readonly⟩ := before
  cases unheld
  rfl

theorem flags_back (engaged : server.Engaged before between) (lifted : server.Lifted between after)
    (writable : server.Writable before) (released : server.Writable after) : after.readonly = before.readonly := by
  obtain ⟨text, toward⟩ := engaged
  funext database
  by_cases user : database ∈ server.userDatabases
  · rw [released database user, writable database user]
  · rcases lifted.flags database with kept | ⟨moved, _⟩
    · rcases toward.flags database with kept' | ⟨moved, _⟩
      · exact kept.trans kept'
      · exact absurd moved user
    · exact absurd moved user

theorem engage_answered (discovered : String) :
    Holds (server.law.restrict Smooth) (server.law.restrict Smooth).Answers (fun _ _ => True) (fun _ _ => True)
      (engage server.host ⟨server.host⟩ discovered) ground :=
  (holds_engage smooth_even discovered).mono (fun _ _ asked => asked.1.answered) (fun _ _ _ => trivial) fun _ _ _ => trivial

theorem lift_answered : Holds (server.law.restrict Smooth) (server.law.restrict Smooth).Answers (fun _ _ => True)
    (fun _ _ => True) (lift server.host ⟨server.host⟩) ground :=
  (holds_lift smooth_even).mono (fun _ _ asked => asked.1.answered) (fun _ _ _ => trivial) fun _ _ _ => trivial

theorem engaged_smooth {discovered : String} {outcome : Outcome Quarantine} (heeds : server.heeds = true)
    (engaged : Program.Runs (server.law.restrict Smooth) (engage server.host ⟨server.host⟩ discovered).run before trace
      outcome between) : (∃ found, outcome = .ok found) ∧ server.Engaged before between := by
  have ended := (holds_engageSmooth heeds discovered).run.steps engaged
  cases outcome with
  | error failure => exact ended.elim
  | ok found => exact ⟨⟨found, rfl⟩, ended.1⟩

theorem lifted_smooth {released : Outcome Bool}
    (lifted : Program.Runs (server.law.restrict Smooth) (lift server.host ⟨server.host⟩).run between quiet released after) :
    (∃ writes, released = .ok writes) ∧ server.Lifted between after ∧
      (between.markers.readonlyLock = none → server.heeds = true → server.Writable after) := by
  have ended := (holds_lift smooth_even).run.steps lifted
  cases released with
  | error failure => exact absurd ended.2 smooth_untroubled
  | ok writes => exact ⟨⟨writes, rfl⟩, ended⟩

/-- Where nothing fails, putting a quarantine up and lifting it come to their ends without a failure, from wherever they
are. The node's own ground is what it was before, and the pooler stays where the quarantine pointed it. -/
theorem undone_up_to_pooler (heeds : server.heeds = true) (unlocked : before.Unlocked) (writable : server.Writable before)
    (discovered start : String) :
    (∀ trace left state, Program.Steps (server.law.restrict Smooth) (engage server.host ⟨server.host⟩ discovered).run
        before trace left state →
      ∃ rest found between, Program.Runs (server.law.restrict Smooth) left state rest (.ok found) between) ∧
    ∀ trace outcome between, Program.Runs (server.law.restrict Smooth) (engage server.host ⟨server.host⟩ discovered).run
        before trace outcome between →
      (∃ found, outcome = .ok found) ∧
      (∀ quiet left state, Program.Steps (server.law.restrict Smooth) (lift server.host ⟨server.host⟩).run between quiet
          left state →
        ∃ rest writes after, Program.Runs (server.law.restrict Smooth) left state rest (.ok writes) after) ∧
      ∀ quiet released after, Program.Runs (server.law.restrict Smooth) (lift server.host ⟨server.host⟩).run between
          quiet released after →
        (∃ writes, released = .ok writes) ∧ after = before ∧ upstream start (trace ++ quiet) =
          if Text.trim discovered = "" ∨ Text.trim discovered = server.host then start else Text.trim discovered := by
  refine ⟨fun trace left state steps => ?_, fun trace outcome between engaged => ?_⟩
  · obtain ⟨rest, outcome, between, ran⟩ := ((engage_answered discovered).run.steps steps).completes
    obtain ⟨⟨found, rfl⟩, -⟩ := engaged_smooth heeds (steps.trans ran)
    exact ⟨rest, found, between, ran⟩
  obtain ⟨succeeded, engages⟩ := engaged_smooth heeds engaged
  refine ⟨succeeded, fun quiet left state steps => ?_, fun quiet released after lifted => ?_⟩
  · obtain ⟨rest, released, after, ran⟩ := (lift_answered.run.steps steps).completes
    obtain ⟨⟨writes, rfl⟩, -⟩ := lifted_smooth (steps.trans ran)
    exact ⟨rest, writes, after, ran⟩
  obtain ⟨⟨writes, rfl⟩, lifts, free⟩ := lifted_smooth lifted
  obtain ⟨found, rfl⟩ := succeeded
  have unheld : between.markers.readonlyLock = none := by
    obtain ⟨text, toward⟩ := engages
    rw [toward.markers]
    exact unlocked.2
  have markers := lifted_engaged engages lifts unlocked
  have flags := flags_back engages lifts writable (free unheld heeds)
  refine ⟨⟨writes, rfl⟩, ?_, ?_⟩
  · cases after
    cases markers
    cases flags
    rfl
  · obtain ⟨going, smooth⟩ := engaged.admitted
    rw [upstream_append, lift_upstream lifted.admitted.1]
    exact engage_upstream going (fun event member => (smooth event member).1) start

private def plainPair : Playbook where
  server := ⟨"host-1", ["postgres", "app"], true⟩
  members := [⟨1, "host-1", "default", true, .primary⟩, ⟨2, "host-2", "default", true, .standby⟩]

private def goingUp (discovered : String) := plainPair.plays (engage "host-1" ⟨"host-1"⟩ discovered).run {}

private def comingDown (discovered : String) := plainPair.plays (lift "host-1" ⟨"host-1"⟩).run (goingUp discovered).2.2

/-- Nobody was found, so clients are back where they were. -/
theorem undecided_undone : ∃ trace quiet between found,
    Program.Runs (plainPair.server.law.restrict Smooth) (engage "host-1" ⟨"host-1"⟩ " ").run {} trace (.ok found) between ∧
      Program.Runs (plainPair.server.law.restrict Smooth) (lift "host-1" ⟨"host-1"⟩).run between quiet (.ok true) {} ∧
      upstream "host-3" (trace ++ quiet) = "host-3" := by
  have fenced : (goingUp " ").2.1 = .done (.ok ⟨none, none, ["app"], ⟨["host-2"], []⟩⟩) := by cbv
  have freed : (comingDown " ").2.1 = .done (.ok true) := by cbv
  have going : ∀ event ∈ (goingUp " ").1, Smooth event := by decide +kernel
  have coming : ∀ event ∈ (comingDown " ").1, Smooth event := by decide +kernel
  have engaged := (plainPair.plays_runs fenced).restrict going
  have lifted := (plainPair.plays_runs freed).restrict coming
  have writable : plainPair.server.Writable {} := fun _ _ => rfl
  obtain ⟨_, _, comes⟩ := (undone_up_to_pooler rfl ⟨rfl, rfl⟩ writable " " "host-3").2 _ _ _ engaged
  obtain ⟨_, same, back⟩ := comes _ _ _ lifted
  rw [same] at lifted
  exact ⟨_, _, _, _, engaged, lifted, back.trans (if_pos (by decide +kernel))⟩

/-- Another primary was found, and clients are still sent there when writes are let in again. -/
theorem clients_left_behind : ∃ trace quiet between after found,
    Program.Runs plainPair.server.law (engage "host-1" ⟨"host-1"⟩ "host-2").run {} trace (.ok found) between ∧
      Program.Runs plainPair.server.law (lift "host-1" ⟨"host-1"⟩).run between quiet (.ok true) after ∧
      (∀ event ∈ trace ++ quiet, ¬event.stops ∧ event.failure? = none) ∧
      upstream "host-1" (trace ++ quiet) = "host-2" := by
  have fenced : (goingUp "host-2").2.1 = .done (.ok ⟨some "host-2", none, ["app"], ⟨["host-2"], []⟩⟩) := by cbv
  have freed : (comingDown "host-2").2.1 = .done (.ok true) := by cbv
  have engaged := plainPair.plays_runs fenced
  have lifted := plainPair.plays_runs freed
  exact ⟨_, _, _, _, _, engaged, lifted, by decide +kernel, by decide +kernel⟩

end Quarantine

end QuorumWarden
