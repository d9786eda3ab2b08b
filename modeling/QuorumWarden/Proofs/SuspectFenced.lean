import Mathlib
import QuorumWarden.Proofs.Evaluations
import QuorumWarden.Proofs.PlayedGround

/-! A suspect primary is fenced by its evaluation, unless something that no fence needs ends the
evaluation first: a zombie lock that cannot be read, or a pooler that fails as if cancelled. -/

namespace QuorumWarden

open QuorumWarden.Action ClusterState

namespace Program.Event

def Commands (event : Program.Event Request.Reply) : Prop :=
  (∃ made, event.request.call? = some made ∧ made.OnDatabase) ∨
    ∃ marker text, event.request = .prompt (.writeMarker marker text)

/-- A failure that ends an evaluation although no fence needs what failed. -/
inductive Derails : Program.Event Request.Reply → Prop where
  | unread (marker : Marker) (failure : Failure) : Derails ⟨.prompt (.readMarker marker), .error failure⟩
  | misdirected {event} (address : String) (failure : Failure)
    (redirects : event.request.call? = some (.setUpstream address)) (failed : event.failure? = some failure)
    (cancelled : failure.isCancelled = true) : Derails event

theorem Derails.aside {event : Program.Event Request.Reply} (derails : event.Derails) : event.request.Aside := by
  cases derails with
  | unread marker failure => exact Or.inl ⟨marker, rfl⟩
  | misdirected address failure redirects => exact Or.inr ⟨address, redirects⟩

end Program.Event

variable {server : Server} {before after : Ground} {trace : List (Program.Event Request.Reply)}

private theorem straight_of_success {event : Program.Event Request.Reply} (succeeded : event.failure? = none) :
    ¬event.Derails := by
  intro derails
  cases derails with
  | unread marker failure => cases succeeded
  | misdirected address failure redirects failed cancelled =>
    rw [succeeded] at failed
    cases failed

private def Unhindered (event : Program.Event Request.Reply) : Prop :=
  ¬event.stops ∧ (event.Commands → event.failure? = none) ∧ ¬event.Derails

private theorem unhindered_even : Evenhanded Unhindered := by
  intro wait reply ⟨_, obeyed, straight⟩
  cases wait with
  | call made =>
    refine ⟨Bool.false_ne_true, ?_, ?_⟩
    · intro commands
      rcases commands with commands | ⟨_, _, writes⟩
      · exact obeyed (Or.inl commands)
      · cases writes
    · intro derails
      cases derails with
      | misdirected address failure redirects failed cancelled =>
        exact straight (.misdirected address failure redirects failed cancelled)
  | _ => exact ⟨Bool.false_ne_true, fun _ => rfl, straight_of_success rfl⟩

private theorem unhindered_free (heeds : server.heeds = true) : ¬Quarantine.Hindered server Unhindered := by
  intro hindered
  cases hindered with
  | heedless heedless => simp [heeds] at heedless
  | stopped stopped =>
    obtain ⟨event, ⟨unstopped, _⟩, stops⟩ := stopped
    exact unstopped stops
  | database failed =>
    obtain ⟨made, failure, here, _, obeyed, _⟩ := failed
    cases obeyed (Or.inl ⟨made, rfl, here⟩)
  | marker text failure failed => cases failed.2.1 (Or.inr ⟨_, text, rfl⟩)
  | pooler address failure cancelled failed => exact failed.2.2 (.misdirected address failure rfl rfl cancelled)

theorem derailed_redirect {host discovered : String} {found : Outcome Quarantine}
    (ran : Program.Runs server.law (Quarantine.redirect host discovered).run before trace found after)
    {event : Program.Event Request.Reply} (member : event ∈ trace) (derails : event.Derails) :
    ∃ failure, found = .error failure := by
  unfold Quarantine.redirect at ran
  split at ran
  next =>
    obtain ⟨rfl, _, _⟩ := Program.Steps.of_done ran
    cases member
  next =>
    rcases runs_of_bind ran with ⟨failure, failed, _⟩ | ⟨result, between, first, second, rfl, settled, onward⟩
    · exact ⟨failure, failed⟩
    · obtain ⟨rfl, uncancelled⟩ := settled_call settled
      have quiet : ∀ event ∈ second, event.failure? = none := by
        rcases result with failure | value
        · cases onward with
          | ask answered more =>
            obtain ⟨rfl, _, _⟩ := Program.Steps.of_done more
            simp [Program.Event.failure?]
        · obtain ⟨rfl, _, _⟩ := Program.Steps.of_done onward
          simp
      rcases List.mem_append.mp member with asked | counted
      · rcases List.mem_cons.mp asked with rfl | asked
        · exact absurd derails (straight_of_success rfl)
        · cases List.mem_singleton.mp asked
          cases derails with
          | misdirected address failure redirects failed cancelled =>
            rcases result with failure' | value
            · cases Option.some.inj failed
              simp [uncancelled failure rfl] at cancelled
            · cases failed
      · exact absurd derails (straight_of_success (quiet event counted))

private theorem isZombie_run : (Fence.isZombie : Action Bool).run = .ask (.prompt (.readMarker .zombieLock)) fun
    | .ok text => .done (.ok text.isSome)
    | .error failure => .done (.error failure) := by
  refine congrArg (Program.ask (Request.prompt (.readMarker .zombieLock))) (funext fun reply => ?_)
  cases reply with
  | ok text => rfl
  | error failure => rfl

private theorem isZombie_looks {found : Outcome Bool}
    (ran : Program.Runs server.law (Fence.isZombie : Action Bool).run before trace found after) :
    after = before ∧ ∀ zombie, found = .ok zombie → ∀ event ∈ trace, event.failure? = none := by
  rw [isZombie_run] at ran
  cases ran with
  | @ask _ _ _ reply _ _ _ _ answered more =>
    cases (answered.1 : _ = before)
    cases reply with
    | ok text =>
      obtain ⟨rfl, _, rfl⟩ := more.of_done
      exact ⟨rfl, fun _ _ _ member => List.mem_singleton.mp member ▸ rfl⟩
    | error failure =>
      obtain ⟨_, ended, rfl⟩ := more.of_done
      cases ended
      exact ⟨rfl, fun _ success => by cases success⟩

theorem derailed_act {diagnosis : Diagnosis} (suspect : diagnosis.verdict ≠ .confirmed)
    {outcome : Outcome (Option Diagnosis)}
    (ran : Program.Runs server.law (act server.host ⟨server.host⟩ diagnosis).run before trace outcome after)
    {event : Program.Event Request.Reply} (member : event ∈ trace) (derails : event.Derails) : after = before := by
  rw [act_suspect _ _ suspect] at ran
  rcases runs_of_bind ran with ⟨failure, _, look⟩ | ⟨zombie, between, looked, since, rfl, look, onward⟩
  · exact (isZombie_looks look).1
  obtain ⟨rfl, seen⟩ := isZombie_looks look
  rw [Quarantine.engage_eq, bind_assoc] at onward
  have redirects : ∀ discovered, Program.Holds (server.law.restrict fun _ => True) _ _
      (Quarantine.redirect server.host discovered).run between :=
    fun discovered => (Quarantine.holds_redirect evenhanded_all _ discovered).run
  rcases runs_of_bind onward with ⟨failure, _, redirect⟩ | ⟨redirected, middle, first, second, rfl, redirect, secured⟩
  · exact ((redirects _).steps (redirect.restrict fun _ _ => trivial)).1
  have secures : Holds (server.law.restrict fun _ => True) (fun request _ => ¬request.Aside) (fun _ _ => True)
      (fun _ _ => True) (do
        let _ ← Quarantine.secure server.host ⟨server.host⟩ (Text.trim diagnosis.primary) redirected
        return some diagnosis) middle :=
    Holds.bind ((Quarantine.holds_secure evenhanded_all _ redirected).mono (fun _ _ asked => asked.2.1)
      (fun _ _ _ => Holds.pure trivial) fun _ _ _ => trivial)
  have straight : ¬event.Derails := by
    rcases List.mem_append.mp member with member | member
    · exact straight_of_success (seen _ rfl event member)
    rcases List.mem_append.mp member with member | member
    · intro derails
      obtain ⟨failure, failed⟩ := derailed_redirect redirect member derails
      cases failed
    · obtain ⟨_, straight⟩ := secures.run.asked (secured.restrict fun _ _ => trivial) event member
      exact fun derails => straight derails.aside
  exact absurd derails straight

/-- Under a verdict that is no confirmation, a node whose commands all succeed ends up fenced exactly
if it was fenced before or nothing derailed the evaluation. -/
theorem suspect_fenced_iff (heeds : server.heeds = true) {outcome : Outcome (Option Diagnosis)}
    (ran : Program.Runs server.law (evaluate server.host).run before trace outcome after) {verdict : Verdict}
    (judged : counted? trace = some (counter verdict)) (suspect : verdict ≠ .confirmed)
    (unstopped : ∀ event ∈ sinceCounted trace, ¬event.stops)
    (obeyed : ∀ event ∈ sinceCounted trace, event.Commands → event.failure? = none) :
    server.Fenced after ↔ server.Fenced before ∨ ∀ event ∈ sinceCounted trace, ¬event.Derails := by
  rcases evaluate_steps ran with ⟨uncounted, _⟩ | ⟨diagnosis, counted, acted⟩
  · rw [uncounted] at judged
    cases judged
  · rw [counted] at judged
    have suspect : diagnosis.verdict ≠ .confirmed := counter_injective (Option.some.inj judged) ▸ suspect
    constructor
    · intro fenced
      by_cases derailed : ∃ event ∈ sinceCounted trace, event.Derails
      · obtain ⟨event, member, derails⟩ := derailed
        exact Or.inl (derailed_act suspect acted member derails ▸ fenced)
      · exact Or.inr fun event member derails => derailed ⟨event, member, derails⟩
    · intro condition
      rcases condition with fenced | straight
      · rcases act_suspect_moves suspect acted with rfl | engaged
        · exact fenced
        · exact engaged.fenced fenced.2
      · have unhindered : ∀ event ∈ sinceCounted trace, Unhindered event :=
          fun event member => ⟨unstopped event member, obeyed event member, straight event member⟩
        have ended := (holds_act_suspect unhindered_even suspect).run.steps (acted.restrict unhindered)
        cases outcome with
        | ok diagnosed => exact ended.2
        | error failure =>
          rcases ended.2 with fenced | hindered | ⟨failure, unread⟩
          · exact fenced
          · exact absurd hindered (unhindered_free heeds)
          · exact absurd (.unread _ failure) unread.2.2

private def cutOff : Playbook where
  server := ⟨"host-1", ["postgres", "app"], true⟩
  members := [⟨1, "host-1", "default", true, .primary⟩, ⟨2, "host-2", "default", true, .standby⟩,
    ⟨3, "host-3", "default", true, .standby⟩]
  broken := [.connect "host-2", .connect "host-3"]

private def fencing := cutOff.plays (evaluate "host-1").run {}

theorem cut_off_primary_fenced :
    ∃ trace outcome after, Program.Runs cutOff.server.law (evaluate cutOff.server.host).run {} trace outcome after ∧
      counted? trace = some (counter .undecided) ∧ cutOff.server.Fenced after := by
  have ended : fencing.2.1 = .done (.ok (some ⟨.undecided, ""⟩)) := by cbv
  have ran := cutOff.plays_runs ended
  have judged : counted? fencing.1 = some (counter .undecided) := by decide +kernel
  have calm : ∀ event ∈ sinceCounted fencing.1, ¬event.stops ∧ event.failure? = none := by decide +kernel
  refine ⟨_, _, _, ran, judged, (suspect_fenced_iff rfl ran judged (by decide) ?_ ?_).mpr (Or.inr ?_)⟩
  · exact fun event member => (calm event member).1
  · exact fun event member _ => (calm event member).2
  · exact fun event member => straight_of_success (calm event member).2

private def unread : Playbook := { cutOff with unreadable := true }

private def sparing := unread.plays (evaluate "host-1").run {}

/-- A lock that cannot be read leaves a suspect primary without one and writable. -/
theorem unread_lock_spares_suspect :
    ∃ (server : Server) (before after : Ground) (trace : List (Program.Event Request.Reply))
      (outcome : Outcome (Option Diagnosis)), server.heeds = true ∧
      Program.Runs server.law (evaluate server.host).run before trace outcome after ∧
      counted? trace = some (counter .undecided) ∧ (∀ event ∈ trace, ¬event.stops) ∧
      (∀ event ∈ sinceCounted trace, event.Commands → event.failure? = none) ∧ ¬server.Fenced after := by
  have ended : sparing.2.1 = .done (.error Playbook.failure) := by cbv
  have ran := unread.plays_runs ended
  have since : sinceCounted sparing.1 = [⟨.prompt (.readMarker .zombieLock), .error Playbook.failure⟩] := by cbv
  refine ⟨_, _, _, _, _, rfl, ran, by decide +kernel, by decide +kernel, ?_, ?_⟩
  · intro event member
    change event ∈ sinceCounted sparing.1 at member
    rw [since] at member
    cases List.mem_singleton.mp member
    intro commands
    rcases commands with ⟨made, called, _⟩ | ⟨marker, text, writes⟩
    · cases called
    · cases writes
  · intro fenced
    exact fenced.1 (by decide +kernel)

end QuorumWarden
