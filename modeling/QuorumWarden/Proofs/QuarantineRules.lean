import QuorumWarden.Proofs.FenceOperations
import QuorumWarden.Quarantine

/-! Putting a quarantine up and lifting it. Up to any request either one has changed nothing yet,
or has changed the zombie lock and only then moved flags its own way. -/

namespace QuorumWarden

open QuorumWarden.Action

namespace Server

def Fenced (server : Server) (ground : Ground) : Prop :=
  ground.markers.zombieLock ≠ none ∧ server.Readonly ground

/-- A zombie lock was taken, and databases have only been made read-only since. -/
def Engaged (server : Server) (before after : Ground) : Prop :=
  ∃ text, server.Toward true (before.setMarker .zombieLock (some text)) after

/-- The zombie lock was dropped, and databases have only been made writable since. -/
def Lifted (server : Server) (before after : Ground) : Prop :=
  server.Toward false (before.setMarker .zombieLock none) after

variable {server : Server} {before after : Ground}

theorem Engaged.locked (engaged : server.Engaged before after) : after.markers.zombieLock ≠ none := by
  obtain ⟨text, toward⟩ := engaged
  simp [toward.markers, Ground.setMarker, Markers.set]

theorem Engaged.fenced (engaged : server.Engaged before after) (readonly : server.Readonly before) :
    server.Fenced after := by
  refine ⟨engaged.locked, fun database user => ?_⟩
  obtain ⟨text, toward⟩ := engaged
  exact toward.stays (readonly database user)

theorem Lifted.unlocked (lifted : server.Lifted before after) : after.markers.zombieLock = none := by
  rw [lifted.markers]
  rfl

end Server

def Call.OnDatabase : Call → Prop
  | .peerReadonly _ | .setPeerReadonly _ _ | .setUpstream _ | .backup _ | .listBackups | .prune => False
  | _ => True

/-- What no fence needs: a look at a marker, or pointing the pooler elsewhere. -/
def Request.Aside (request : Request) : Prop :=
  (∃ marker, request = .prompt (.readMarker marker)) ∨ ∃ address, request.call? = some (.setUpstream address)

namespace Quarantine

variable {server : Server} {admits : Program.Event Request.Reply → Prop} {ground : Ground}

/-- All that may keep a fence from being put up. -/
inductive Hindered (server : Server) (admits : Program.Event Request.Reply → Prop) : Prop where
  | heedless (heedless : server.heeds = false)
  | stopped (stopped : MayStop admits)
  | database (failed : MayFail admits Call.OnDatabase)
  | marker (text : String) (failure : Failure) (failed : admits ⟨.prompt (.writeMarker .zombieLock text), .error failure⟩)
  | pooler (address : String) (failure : Failure) (cancelled : failure.isCancelled = true)
    (failed : admits ⟨.await (.call (.setUpstream address)), .error failure⟩)

private theorem hindered_of_blamed {calls : Call → Prop} (database : ∀ made, calls made → made.OnDatabase)
    (blamed : Readonly.Blamed admits calls) : Hindered server admits := by
  rcases blamed with stopped | ⟨made, failure, asked, admitted⟩
  · exact .stopped stopped
  · exact .database ⟨made, failure, database made asked, admitted⟩

private theorem straight_of_prompt {asked : Prompt} (other : ∀ marker, asked ≠ .readMarker marker) :
    ¬(Request.prompt asked).Aside := by
  intro aside
  rcases aside with ⟨marker, looks⟩ | ⟨address, redirects⟩
  · cases looks
    exact other marker rfl
  · cases redirects

private theorem straight_of_asking {calls : Call → Prop} {grounded : Ground → Prop} {request : Request}
    (asking : Asking calls grounded request ground) (other : ∀ address, ¬calls (.setUpstream address)) :
    ¬request.Aside := by
  have asked := asking.2
  cases request with
  | prompt prompt =>
    refine straight_of_prompt ?_
    intro marker same
    subst same
    rcases asked with asked | ⟨counter, asked⟩
    · cases asked
    · cases asked
  | await wait | awaitOrStop wait =>
    intro aside
    rcases aside with ⟨marker, looks⟩ | ⟨address, called⟩
    · cases looks
    · cases wait with
      | call made =>
        cases called
        exact other address asked
      | _ => cases called

private def Redirects (made : Call) : Prop := ∃ address, made = .setUpstream address

private theorem redirects_keeping (made : Call) (redirects : Redirects made) (host database : String) (enabled : Bool) :
    made ≠ .setReadonly host database enabled := by
  obtain ⟨address, rfl⟩ := redirects
  simp

theorem holds_redirect (even : Evenhanded admits) (host discovered : String) :
    Holds (server.law.restrict admits) (fun request now => Careful server request now ∧ now = ground)
      (fun _ after => after = ground) (fun _ after => after = ground ∧ Hindered server admits)
      (redirect host discovered) ground := by
  have careful : ∀ request now, Asking Redirects (· = ground) request now → Careful server request now ∧ now = ground :=
    fun request now asking => ⟨asking.careful_of_keeping redirects_keeping, asking.1⟩
  unfold redirect
  split
  next => exact Holds.pure rfl
  next =>
    have redirected : Holds (server.law.restrict admits) (Asking Redirects (· = ground)) (fun _ after => after = ground)
        (fun _ after => after = ground ∧ Hindered server admits) (settled (guarded (setUpstream discovered))) ground := by
      refine Holds.settled (holds_guarded even (Server.keeps_same ground redirects_keeping) rfl ?_
        (Holds.request (.setUpstream discovered) ⟨rfl, _, rfl⟩ ?_ ?_))
      · exact fun after same may => ⟨same, .stopped may⟩
      · exact fun _ after ⟨same, _⟩ => same
      · intro failure after ⟨same, admitted⟩
        split
        next cancelled => exact ⟨same, .pooler discovered failure cancelled admitted⟩
        next => exact same
    refine Holds.bind (redirected.mono careful ?_ fun _ _ failed => failed)
    intro result after same
    subst same
    cases result with
    | error failure => exact Holds.bind (holds_count ⟨trivial, rfl⟩ (Holds.pure rfl))
    | ok value => exact Holds.pure rfl

theorem engage_eq (host : String) (session : Session) (discovered : String) :
    engage host session discovered =
      redirect host (Text.trim discovered) >>= secure host session (Text.trim discovered) := rfl

/-- A quarantine that gets past the redirect fences the node, or says that it could not. -/
theorem holds_secure (even : Evenhanded admits) (discovered : String) (redirected : Quarantine) :
    Holds (server.law.restrict admits)
      (fun request now => Careful server request now ∧ ¬request.Aside ∧ (now = ground ∨ server.Engaged ground now))
      (fun _ after => server.Engaged ground after ∧ server.Fenced after)
      (fun _ after => (after = ground ∨ server.Engaged ground after) ∧ (server.Fenced after ∨ Hindered server admits))
      (secure server.host ⟨server.host⟩ discovered redirected) ground := by
  have first : server.Engaged ground (ground.setMarker .zombieLock (some (Text.trim discovered))) := ⟨_, .refl _⟩
  refine Holds.bind (Holds.inContext (holds_write ⟨trivial, straight_of_prompt (by simp), Or.inl rfl⟩ ?_ ?_))
  · refine Holds.bind (Holds.inContext ((Readonly.holds_setLocalGuarded even true _).mono ?_ ?_ ?_))
    · intro request now asking
      refine ⟨Readonly.engaging_careful asking, straight_of_asking asking ?_, Or.inr ⟨_, asking.1⟩⟩
      intro address asked
      rcases asked with lists | ⟨_, _, sets⟩
      · cases lists
      · cases sets
    · intro _ after ended
      obtain ⟨rfl, toward, set⟩ := ended
      have engaged : server.Engaged ground after := ⟨_, toward⟩
      -- Whatever fails from here on, only a server that does not heed leaves a database writable.
      have fenced : server.Fenced after ∨ Hindered server admits := by
        cases heeds : server.heeds with
        | false => exact Or.inr (.heedless heeds)
        | true => exact Or.inl ⟨engaged.locked, set heeds⟩
      refine Holds.bind ((Readonly.holds_broadcast even true).mono ?_ ?_ ?_)
      · intro request now asking
        refine ⟨Readonly.telling_careful asking, straight_of_asking asking ?_, Or.inr (asking.1 ▸ engaged)⟩
        intro address asked
        rcases asked with lists | ⟨_, tells⟩
        · cases lists
        · cases tells
      · intro _ _ same
        subst same
        refine Holds.bind ((Readonly.holds_verifyGuarded even _).mono ?_ ?_ ?_)
        · intro request now asking
          refine ⟨Readonly.checking_careful asking, straight_of_asking asking ?_, Or.inr (asking.1 ▸ engaged)⟩
          intro address asked
          obtain ⟨_, checks⟩ := asked
          cases checks
        · intro _ _ ended
          obtain ⟨rfl, verified⟩ := ended
          exact Holds.bind (holds_count ⟨trivial, straight_of_prompt (by simp), Or.inr engaged⟩
            (Holds.pure ⟨engaged, engaged.locked, verified⟩))
        · intro _ _ ended
          obtain ⟨rfl, _⟩ := ended
          exact ⟨Or.inr engaged, fenced⟩
      · intro _ _ ended
        obtain ⟨rfl, _⟩ := ended
        exact ⟨Or.inr engaged, fenced⟩
    · intro _ after ⟨toward, blamed⟩
      refine ⟨Or.inr ⟨_, toward⟩, Or.inr (hindered_of_blamed ?_ blamed)⟩
      intro made asked
      rcases asked with rfl | ⟨_, _, rfl⟩
      · trivial
      · trivial
  · intro failure after admitted left
    exact ⟨left.imp_right fun same => by rwa [same], Or.inr (.marker _ failure admitted)⟩

/-- A quarantine fences the node, unless it says otherwise and something hindered it. -/
theorem holds_engage (even : Evenhanded admits) (discovered : String) :
    Holds (server.law.restrict admits)
      (fun request now => Careful server request now ∧ (now = ground ∨ server.Engaged ground now))
      (fun _ after => server.Engaged ground after ∧ server.Fenced after)
      (fun _ after => (after = ground ∨ server.Engaged ground after) ∧ (server.Fenced after ∨ Hindered server admits))
      (engage server.host ⟨server.host⟩ discovered) ground := by
  rw [engage_eq]
  refine Holds.bind ((holds_redirect even server.host (Text.trim discovered)).mono ?_ ?_ ?_)
  · exact fun request now ⟨careful, same⟩ => ⟨careful, Or.inl same⟩
  · intro redirected _ same
    subst same
    exact (holds_secure even _ redirected).mono (fun _ _ asked => ⟨asked.1, asked.2.2⟩) (fun _ _ ended => ended)
      fun _ _ failed => failed
  · exact fun _ after ⟨same, hindered⟩ => ⟨Or.inl same, Or.inr hindered⟩

/-- A lift lets writes in again if no other lock is left, unless it says otherwise and there was trouble. -/
theorem holds_lift (even : Evenhanded admits) :
    Holds (server.law.restrict admits)
      (fun request now => Careful server request now ∧ (now = ground ∨ server.Lifted ground now))
      (fun _ after => server.Lifted ground after ∧
        (ground.markers.readonlyLock = none → server.heeds = true → server.Writable after))
      (fun _ after => (after = ground ∨ server.Lifted ground after) ∧ Troubled admits)
      (lift server.host ⟨server.host⟩) ground := by
  have lifted : server.Lifted ground (ground.setMarker .zombieLock none) := .refl _
  have free : (ground.setMarker .zombieLock none).Unlocked ↔ ground.markers.readonlyLock = none := by
    simp [Ground.Unlocked, Ground.setMarker, Markers.set]
  have spoiled : ∀ event, admits event → event.failure? ≠ none → Troubled admits :=
    fun event admitted failed => ⟨event, admitted, Or.inr failed⟩
  refine Holds.bind (Holds.inContext (holds_remove ⟨trivial, Or.inl rfl⟩ ?_ ?_))
  · refine Holds.bind (holds_count ⟨trivial, Or.inr lifted⟩ (Holds.bind (holds_state ?_ ?_ ?_)))
    · exact fun _ => ⟨trivial, Or.inr lifted⟩
    · intro state allows
      rw [free] at allows
      split
      next writes =>
        have unlocked := free.mpr (allows.mp writes)
        refine Holds.bind (Holds.inContext ((Readonly.holds_setLocalGuarded even false _).mono ?_ ?_ ?_))
        · exact fun _ _ asking => ⟨Readonly.releasing_careful unlocked asking, Or.inr asking.1⟩
        · intro _ after ended
          obtain ⟨_, toward, set⟩ := ended
          refine Holds.bind ((Readonly.holds_broadcast even false).mono ?_ ?_ ?_)
          · exact fun _ _ asking => ⟨Readonly.telling_careful asking, Or.inr (asking.1 ▸ toward)⟩
          · intro _ _ same
            subst same
            exact Holds.pure ⟨toward, fun _ => set⟩
          · intro _ _ ended
            obtain ⟨rfl, blamed⟩ := ended
            exact ⟨Or.inr toward, blamed.troubled⟩
        · intro _ _ ended
          obtain ⟨toward, blamed⟩ := ended
          exact ⟨Or.inr toward, blamed.troubled⟩
      next held => exact Holds.pure ⟨lifted, fun unheld => absurd (allows.mpr unheld) held⟩
    · exact fun _ failure admitted => ⟨Or.inr lifted, spoiled _ admitted (Option.some_ne_none failure)⟩
  · intro failure after admitted left
    refine ⟨left.imp_right fun same => ?_, spoiled _ admitted (Option.some_ne_none failure)⟩
    rw [same]
    exact lifted

end Quarantine

end QuorumWarden
