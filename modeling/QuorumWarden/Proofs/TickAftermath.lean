import Mathlib
import QuorumWarden.Proofs.PlayedGround
import QuorumWarden.Proofs.RecordedFence
import QuorumWarden.Proofs.RecordedVerdict
import QuorumWarden.Proofs.TextRules

/-! What an evaluation leaves behind. Nothing is changed before the verdict, nor by a confirmation
that finds no zombie lock; any other verdict leaves a sealed node under a zombie lock. -/

namespace QuorumWarden

open QuorumWarden.Action

def Call.Changes : Call → Prop
  | .connect _ | .listMembers _ | .primaryMember _ | .slots _ => False
  | .databases _ | .readonly _ _ | .peerReadonly _ | .listBackups => False
  | _ => True

def Prompt.Changes : Prompt → Prop
  | .writeMarker _ _ | .removeMarker _ => True
  | _ => False

def Request.Changes : Request → Prop
  | .prompt asked => asked.Changes
  | .await (.call made) | .awaitOrStop (.call made) => made.Changes
  | _ => False

def Deed.Changes : Deed → Prop
  | .prompt asked _ => asked.Changes
  | .call made _ => made.Changes

/-- No marker was written and nothing behind a port, nor was it asked for. -/
structure Untouched (trace : List (Program.Event Request.Reply)) (deeds : List Deed) : Prop where
  asked : ∀ event ∈ trace, ¬event.request.Changes
  done : ∀ deed ∈ deeds, ¬deed.Changes

theorem Deed.Surveys.idle {deed : Deed} (surveys : deed.Surveys) : ¬deed.Changes ∧ deed.Aside := by
  cases deed with
  | prompt asked reply =>
    cases (surveys : asked = .stopRequested)
    exact ⟨id, rfl, rfl⟩
  | call made reply =>
    cases made with
    | connect | listMembers | primaryMember => exact ⟨id, rfl, rfl⟩
    | _ => exact surveys.elim

namespace ClusterState

variable {host : String} {markers : Markers} {before after : Recorded Ground} {diagnosis : Diagnosis}

theorem Surveying.unchanging {request : Request} {now : Recorded Ground} (surveying : Surveying markers request now) :
    ¬request.Changes := by
  obtain ⟨unwritten, asked⟩ := surveying
  cases request with
  | prompt prompt =>
    cases (asked : prompt = .stopRequested)
    exact id
  | await wait | awaitOrStop wait =>
    cases wait with
    | call made =>
      have noted := (asked _ (Or.inr ⟨.error .cancelled, Ground.openPorts_call made now _⟩)).2
      have surveys : (Deed.call made (.error .cancelled)).Surveys := noted _ (by simp [Recorded.note])
      exact surveys.idle.1
    | _ => exact id

theorem OnlySurveyed.untouched {trace : List (Program.Event Request.Reply)} (surveyed : OnlySurveyed markers trace before) :
    Untouched trace before.deeds := by
  refine ⟨fun event member => ?_, fun deed member => (surveyed.unwritten.2 deed member).idle.1⟩
  obtain ⟨now, surveying⟩ := surveyed.asked event member
  exact surveying.unchanging

/-- A confirmed node without a zombie lock is left alone. -/
theorem holds_respondIdle (host : String) (session : Session) (confirmed : diagnosis.verdict = .confirmed)
    (unlocked : before.state.markers.zombieLock = none) :
    Holds Ground.openPorts.recorded.law (fun request _ => ¬request.Changes)
      (fun _ after => after.state.markers = before.state.markers ∧ after.deeds = before.deeds ++
        [.prompt (.count (counter diagnosis.verdict)) (), .prompt (.readMarker .zombieLock) (.ok none)])
      (fun _ _ => True) (respond host (some (session, diagnosis))) before := by
  refine Holds.bind (Holds.lift ⟨id, fun _ between counted => ?_⟩)
  rw [act_confirmed _ _ confirmed]
  refine Holds.bind ⟨id, fun reply after read => ?_⟩
  have same : between.state = before.state := counted.1
  have kept : after.state = between.state := read.1.1
  cases reply with
  | error failure => trivial
  | ok text =>
    have told : text = between.state.markers.get .zombieLock := read.1.2 text rfl
    rw [same, Markers.get, unlocked] at told
    subst told
    refine ⟨by rw [kept, same], ?_⟩
    rw [read.2, counted.2]
    simp

theorem idle_confirmation {session : Session} {outcome : Outcome (Option Diagnosis)}
    {first second : List (Program.Event Request.Reply)} (confirmed : diagnosis.verdict = .confirmed)
    (unlocked : before.state.markers.zombieLock = none) (untouched : Untouched first before.deeds)
    (ran : Program.Runs Ground.openPorts.recorded.law (respond host (some (session, diagnosis))).run before second outcome after)
    (fine : ∀ failure, outcome ≠ .error failure) : Untouched (first ++ second) after.deeds := by
  have holds := (holds_respondIdle host session confirmed unlocked).run
  have ended := holds.steps ran
  cases outcome with
  | error failure => exact absurd rfl (fine failure)
  | ok found =>
    obtain ⟨_, deeds⟩ := ended
    constructor
    · refine List.forall_mem_append.mpr ⟨untouched.asked, fun event member => ?_⟩
      obtain ⟨_, unchanging⟩ := holds.asked ran event member
      exact unchanging
    · rw [deeds]
      exact List.forall_mem_append.mpr ⟨untouched.done, by simp [Deed.Changes, Prompt.Changes]⟩

/-- A lock that was there is dropped, and the databases are released if no other lock is left. -/
theorem confirmation_recorded {found : Option Diagnosis} (confirmed : diagnosis.verdict = .confirmed)
    (returns : Returns Ground.openPorts.recorded.law (respond host (some (⟨host⟩, diagnosis))) before found after) :
    after.state.markers.zombieLock = none ∧
      (before.state.markers.zombieLock ≠ none → before.state.markers.readonlyLock = none →
        ∃ added, after.deeds = before.deeds ++ added ∧ Released host added) := by
  obtain ⟨_, one, counts, acts⟩ := returns_bind_iff.mp returns
  have counted := passed_count counts
  rw [act_confirmed _ _ confirmed] at acts
  obtain ⟨fenced, two, looks, onward⟩ := returns_bind_iff.mp acts
  obtain ⟨rfl, looked⟩ := Fence.passed_holds looks
  have ahead := counted.trans looked
  rw [Markers.get, counted.markers] at onward
  cases lock : before.state.markers.zombieLock with
  | none =>
    rw [lock] at onward
    obtain ⟨_, rfl⟩ := returns_pure_iff.mp onward
    exact ⟨by rw [ahead.markers, lock], fun locked => absurd rfl locked⟩
  | some text =>
    rw [lock] at onward
    obtain ⟨_, _, lifts, ended⟩ := returns_bind_iff.mp onward
    obtain ⟨_, rfl⟩ := returns_pure_iff.mp ended
    obtain ⟨added, deeds, unlocked, released⟩ := Quarantine.lifted_recorded lifts
    rw [ahead.deeds, List.append_assoc] at deeds
    rw [ahead.markers] at released
    exact ⟨unlocked, fun _ unheld => ⟨_, deeds, (released unheld).behind rfl⟩⟩

/-- Any other verdict seals the node in favour of whom it names. -/
theorem suspicion_recorded {found : Option Diagnosis} (suspect : diagnosis.verdict ≠ .confirmed)
    (returns : Returns Ground.openPorts.recorded.law (respond host (some (⟨host⟩, diagnosis))) before found after) :
    ∃ added, after.deeds = before.deeds ++ added ∧ Sealed host added ∧
      after.state.markers.zombieLock = some (Text.trim diagnosis.primary) ∧
      redirects added = if Text.trim diagnosis.primary = "" ∨ Text.trim diagnosis.primary = host then []
        else [Text.trim diagnosis.primary] := by
  obtain ⟨_, one, counts, acts⟩ := returns_bind_iff.mp returns
  have counted := passed_count counts
  rw [act_suspect _ _ suspect] at acts
  obtain ⟨_, two, looks, onward⟩ := returns_bind_iff.mp acts
  obtain ⟨_, looked⟩ := Fence.passed_holds looks
  obtain ⟨_, _, engages, ended⟩ := returns_bind_iff.mp onward
  obtain ⟨_, rfl⟩ := returns_pure_iff.mp ended
  obtain ⟨added, deeds, closed, lock, redirected⟩ := Quarantine.engaged_recorded engages
  have ahead := counted.trans looked
  rw [Text.trim_trim] at lock
  rw [ahead.deeds, List.append_assoc] at deeds
  refine ⟨_, deeds, closed.behind rfl, lock, ?_⟩
  exact (redirects_behind (by simp)).trans redirected

/-- What an evaluation that returned a diagnosis leaves behind. -/
structure Aftermath (host : String) (start : Ground) (trace : List (Program.Event Request.Reply))
    (after : Recorded Ground) (diagnosis : Diagnosis) : Prop where
  locked : after.state.markers.zombieLock ≠ none ↔ diagnosis.verdict ≠ .confirmed
  deferred : diagnosis.verdict ≠ .confirmed → after.state.markers.zombieLock = some (Text.trim diagnosis.primary)
  closed : diagnosis.verdict ≠ .confirmed → Sealed host after.deeds
  redirected : diagnosis.verdict ≠ .confirmed →
    redirects after.deeds = if Text.trim diagnosis.primary = "" ∨ Text.trim diagnosis.primary = host then []
      else [Text.trim diagnosis.primary]
  idle : diagnosis.verdict = .confirmed → start.markers.zombieLock = none → Untouched trace after.deeds
  released : diagnosis.verdict = .confirmed → start.markers.zombieLock ≠ none → start.markers.readonlyLock = none →
    Released host after.deeds

theorem aftermath_of_respond {start : Ground} {first second : List (Program.Event Request.Reply)} {between : Recorded Ground}
    (surveyed : OnlySurveyed start.markers first between)
    (ran : Program.Runs Ground.openPorts.recorded.law (respond host (some (⟨host⟩, diagnosis))).run between second
      (.ok (some diagnosis)) after) : Aftermath host start (first ++ second) after diagnosis := by
  have aside : ∀ deed ∈ between.deeds, deed.Aside := fun deed member => (surveyed.unwritten.2 deed member).idle.2
  have same := surveyed.unwritten.1
  by_cases confirmed : diagnosis.verdict = .confirmed
  · obtain ⟨unlocked, released⟩ := confirmation_recorded confirmed ⟨second, ran⟩
    rw [same] at released
    refine ⟨by simp [unlocked, confirmed], absurd confirmed, absurd confirmed, absurd confirmed, ?_, ?_⟩
    · intro _ lock
      exact idle_confirmation confirmed (same ▸ lock) surveyed.untouched ran (by simp)
    · intro _ lock unheld
      obtain ⟨added, deeds, released⟩ := released lock unheld
      rw [deeds]
      exact released.behind (listings_aside aside)
  · obtain ⟨added, deeds, closed, lock, redirected⟩ := suspicion_recorded confirmed ⟨second, ran⟩
    refine ⟨by simp [lock, confirmed], fun _ => lock, fun _ => ?_, fun _ => ?_, fun same => absurd same confirmed,
      fun same => absurd same confirmed⟩
    · rw [deeds]
      exact closed.behind (listings_aside aside)
    · rw [deeds]
      exact (redirects_behind aside).trans redirected

/-- Whatever the ports answer, an evaluation leaves behind what its diagnosis asks for, and without
a verdict it leaves everything as it was. -/
theorem tick_aftermath {start : Ground} {trace : List (Program.Event Request.Reply)} {outcome : Outcome (Option Diagnosis)}
    (ran : Program.Runs Ground.openPorts.recorded.law (evaluate host).run ⟨start, []⟩ trace outcome after) :
    (∀ diagnosis, outcome = .ok (some diagnosis) → Aftermath host start trace after diagnosis) ∧
      (outcome = .ok none ∨ counted? trace = none → Untouched trace after.deeds) := by
  rcases evaluate_ends ran with ⟨surveyed, undecided⟩ | ⟨diagnosis, between, first, second, rfl, surveyed, _, responded⟩
  · exact ⟨fun diagnosis same => absurd same (undecided diagnosis), fun _ => surveyed.untouched⟩
  constructor
  · intro found same
    subst same
    cases returns_respond ⟨second, responded⟩
    exact aftermath_of_respond surveyed responded
  · intro unjudged
    rcases unjudged with rfl | uncounted
    · cases returns_respond ⟨second, responded⟩
    · -- whatever follows the verdict begins with its count
      cases responded with
      | ask counted more =>
        have counts := List.findSome?_eq_none_iff.mp uncounted ⟨.prompt (.count (counter diagnosis.verdict)), ()⟩ (by simp)
        cases counts

private def deposed : Playbook where
  server := ⟨"host-1", ["postgres", "app"], true⟩
  members := [⟨2, "host-2", "default", true, .primary⟩, ⟨1, "host-1", "default", true, .primary⟩,
    ⟨3, "host-3", "default", true, .standby⟩, ⟨4, "host-4", "default", true, .standby⟩]

theorem deposed_primary_sealed : ∃ (trace : List (Program.Event Request.Reply)) (after : Recorded Ground),
    Program.Runs Ground.openPorts.recorded.law (evaluate "host-1").run ⟨{}, []⟩ trace
      (.ok (some ⟨.discoveredOther, "host-2"⟩)) after ∧
    after.state.markers.zombieLock = some "host-2" ∧ redirects after.deeds = ["host-2"] ∧ Sealed "host-1" after.deeds := by
  have ended : (deposed.plays (evaluate "host-1").run {}).2.1 = .done (.ok (some ⟨.discoveredOther, "host-2"⟩)) := by cbv
  obtain ⟨deeds, ran⟩ := Surroundings.steps_recorded deposed.server.within_openPorts [] (deposed.plays_runs ended)
  have aftermath := (tick_aftermath ran).1 _ rfl
  have suspect : Verdict.discoveredOther ≠ .confirmed := by simp
  exact ⟨_, _, ran, aftermath.deferred suspect, aftermath.redirected suspect, aftermath.closed suspect⟩

end ClusterState

end QuorumWarden
