import QuorumWarden.Proofs.ReadonlyFlags

/-! Taking and dropping the readonly lock, and the parts that all fencing is made of. Every one of
them is careful: it lets writes in again only where no lock is left. -/

namespace QuorumWarden

open QuorumWarden.Action

/-- Nothing but prompts and calls, and a database is made writable only if it is a user's and no
lock is there. -/
def Careful (server : Server) (request : Request) (ground : Ground) : Prop :=
  match request with
  | .prompt _ => True
  | .await wait | .awaitOrStop wait => ∃ made, wait = .call made ∧
    ∀ host database, made = .setReadonly host database false → ground.Unlocked ∧ database ∈ server.userDatabases

variable {server : Server} {admits : Program.Event Request.Reply → Prop} {ground : Ground}

theorem Asking.careful {calls : Call → Prop} {grounded : Ground → Prop} {request : Request}
    (asking : Asking calls grounded request ground)
    (released : ∀ host database, calls (.setReadonly host database false) → grounded ground →
      ground.Unlocked ∧ database ∈ server.userDatabases) : Careful server request ground := by
  obtain ⟨stands, asked⟩ := asking
  cases request with
  | prompt prompt => trivial
  | await wait | awaitOrStop wait =>
    cases wait with
    | call made =>
      refine ⟨made, rfl, ?_⟩
      intro host database same
      subst same
      exact released host database asked stands
    | _ => exact asked.elim

theorem Asking.careful_of_keeping {calls : Call → Prop} {grounded : Ground → Prop} {request : Request}
    (asking : Asking calls grounded request ground)
    (other : ∀ made, calls made → ∀ host database enabled, made ≠ .setReadonly host database enabled) :
    Careful server request ground :=
  asking.careful fun host database asked _ => absurd rfl (other _ asked host database false)

theorem Careful.keeps_readonly {request : Request} {reply : request.Reply} {after : Ground}
    (careful : Careful server request ground) (locked : ¬ground.Unlocked) (readonly : server.Readonly ground)
    (answered : server.law request ground reply after) : server.Readonly after := by
  have called : ∀ made reply, (∀ host database, made = .setReadonly host database false →
      ground.Unlocked ∧ database ∈ server.userDatabases) → server.call made ground reply after →
      server.Readonly after := by
    intro made reply released answered
    by_cases sets : ∃ host database enabled, made = .setReadonly host database enabled
    · obtain ⟨host, database, enabled, rfl⟩ := sets
      cases enabled with
      | false => exact absurd (released host database rfl).1 locked
      | true =>
        rcases answered with ⟨rfl, _⟩ | ⟨_, rfl⟩
        · exact readonly
        · intro other user
          simp [Ground.setReadonly, readonly other user]
    · have same := Server.call_keeps (fun host database enabled set => sets ⟨host, database, enabled, set⟩) answered
      exact same ▸ readonly
  cases request with
  | prompt asked =>
    intro database user
    rw [Ground.prompt_readonly answered]
    exact readonly database user
  | await wait =>
    obtain ⟨made, rfl, released⟩ := careful
    exact called made reply released answered
  | awaitOrStop wait =>
    obtain ⟨made, rfl, released⟩ := careful
    cases reply with
    | some reply => exact called made reply released answered
    | none =>
      rcases answered with same | ⟨reply, answered⟩
      · exact (same : after = ground) ▸ readonly
      · exact called made reply released answered

namespace Readonly

theorem engaging_careful {grounded : Ground → Prop} {request : Request}
    (asking : Asking (fun made => Lists server made ∨ Sets server true made) grounded request ground) :
    Careful server request ground := by
  refine asking.careful ?_
  intro host database asked _
  rcases asked with lists | ⟨_, _, sets⟩
  · cases lists
  · cases sets

theorem releasing_careful {start : Ground} (unlocked : start.Unlocked) {request : Request}
    (asking : Asking (fun made => Lists server made ∨ Sets server false made) (server.Toward false start) request
      ground) : Careful server request ground := by
  refine asking.careful ?_
  intro host database asked toward
  rcases asked with lists | ⟨name, user, sets⟩
  · cases lists
  · cases sets
    refine ⟨?_, user⟩
    unfold Ground.Unlocked
    rw [toward.markers]
    exact unlocked

theorem checking_careful {grounded : Ground → Prop} {request : Request}
    (asking : Asking (Checks server) grounded request ground) : Careful server request ground :=
  asking.careful_of_keeping (by rintro _ ⟨_, rfl⟩ _ _ _; simp)

theorem telling_careful {enabled : Bool} {grounded : Ground → Prop} {request : Request}
    (asking : Asking (Tells server enabled) grounded request ground) : Careful server request ground :=
  asking.careful_of_keeping (by rintro _ (rfl | ⟨_, rfl⟩) _ _ _ <;> simp)

theorem holds_setLocalGuarded (even : Evenhanded admits) (enabled : Bool) (ground : Ground) :
    Holds (server.law.restrict admits)
      (Asking (fun made => Lists server made ∨ Sets server enabled made) (server.Toward enabled ground))
      (fun names after => names = server.userDatabases ∧ server.Toward enabled ground after ∧
        (server.heeds = true → ∀ name ∈ server.userDatabases, after.readonly name = enabled))
      (fun _ after => server.Toward enabled ground after ∧
        Blamed admits fun made => Lists server made ∨ Sets server enabled made)
      (guarded (setLocal ⟨server.host⟩ enabled)) ground := by
  refine holds_guarded even (setLocal_keeps enabled ground) (.refl ground) ?_ ?_
  · exact fun after toward may => ⟨toward, Or.inl may⟩
  · refine Holds.mono (holds_setLocal enabled ground) (fun _ _ asked => asked) (fun _ _ set => set) ?_
    exact fun _ after ⟨toward, may⟩ => ⟨toward, Or.inr may⟩

theorem holds_verifyGuarded (even : Evenhanded admits) (names : List String) :
    Holds (server.law.restrict admits) (Asking (Checks server) (· = ground))
      (fun _ after => after = ground ∧ ∀ name ∈ names, ground.readonly name = true)
      (fun _ after => after = ground ∧
        (Blamed admits (Checks server) ∨ ∃ name ∈ names, ground.readonly name = false))
      (guarded (verify ⟨server.host⟩ names)) ground := by
  refine holds_guarded even (verify_keeps ground) rfl ?_ ?_
  · exact fun after same may => ⟨same, Or.inl (Or.inl may)⟩
  · refine Holds.mono holds_verify (fun _ _ asked => asked) (fun _ _ verified => verified) ?_
    exact fun _ after ⟨same, failed⟩ => ⟨same, failed.imp_left Or.inr⟩

end Readonly

namespace Node

def Connects (server : Server) (made : Call) : Prop := made = .connect server.host

theorem connecting_careful {grounded : Ground → Prop} {request : Request}
    (asking : Asking (Connects server) grounded request ground) : Careful server request ground :=
  asking.careful_of_keeping (by rintro _ rfl _ _ _; simp)

theorem holds_connectGuarded (even : Evenhanded admits) :
    Holds (server.law.restrict admits) (Asking (Connects server) (· = ground))
      (fun session after => session = ⟨server.host⟩ ∧ after = ground)
      (fun _ after => after = ground ∧ Readonly.Blamed admits (Connects server)) (guarded (connect server.host)) ground := by
  refine holds_guarded even (Server.keeps_same ground (by rintro _ rfl _ _ _; simp)) rfl ?_
    (Holds.inContext (Holds.bind (Holds.request (.connect server.host) ⟨rfl, rfl⟩ ?_ ?_)))
  · exact fun after same may => ⟨same, Or.inl may⟩
  · intro _ after ended
    obtain ⟨same, _⟩ := ended
    exact Holds.pure ⟨rfl, same⟩
  · intro failure after effect
    obtain ⟨same, admitted⟩ := effect
    exact ⟨same, Or.inr ⟨_, failure, rfl, admitted⟩⟩

theorem runs_survey {σ : Type} {surroundings : Surroundings σ} {host : String} {members : List Member}
    {first second third fourth : σ} (unasked : surroundings.prompt .stopRequested first false second)
    (dialled : surroundings.call (.connect host) second (.ok ()) third)
    (listed : surroundings.call (.listMembers host) third (.ok members) fourth) :
    ∃ trace, Program.Runs surroundings.law (guarded (survey host)).run first trace (.ok (⟨host⟩, ⟨members⟩)) fourth := by
  have surveyed : Program.Runs surroundings.law (survey host).run second
      [⟨.await (.call (.connect host)), .ok ()⟩, ⟨.await (.call (.listMembers host)), .ok members⟩]
      (.ok (⟨host⟩, ⟨members⟩)) fourth := .ask dialled (.ask listed .refl)
  exact runs_guarded unasked surveyed (by simp [Program.Event.stops])

end Node

namespace Readonly

theorem holds_enable (even : Evenhanded admits) :
    Holds (server.law.restrict admits) (Careful server)
      (fun _ after => after.markers.readonlyLock ≠ none ∧ server.Readonly after) (fun _ _ => True)
      (enable server.host) ground := by
  refine Holds.bind (Holds.inContext (holds_write trivial ?_ fun _ _ _ _ => trivial))
  refine Holds.bind ((Node.holds_connectGuarded even).mono (fun _ _ => Node.connecting_careful) ?_ fun _ _ _ => trivial)
  intro _ _ ended
  obtain ⟨rfl, rfl⟩ := ended
  refine Holds.bind ((holds_setLocalGuarded even true _).mono (fun _ _ => engaging_careful) ?_ fun _ _ _ => trivial)
  intro _ after ended
  obtain ⟨rfl, toward, _⟩ := ended
  have locked : after.markers.readonlyLock ≠ none := by simp [toward.markers, Ground.setMarker, Markers.set]
  refine Holds.bind ((holds_verifyGuarded even _).mono (fun _ _ => checking_careful) ?_ fun _ _ _ => trivial)
  intro _ _ ended
  obtain ⟨rfl, verified⟩ := ended
  refine (holds_broadcast even true).mono (fun _ _ => telling_careful) ?_ fun _ _ _ => trivial
  intro _ _ same
  subst same
  exact ⟨locked, verified⟩

theorem holds_disable (even : Evenhanded admits) :
    Holds (server.law.restrict admits) (Careful server) (fun _ _ => True) (fun _ _ => True)
      (disable server.host) ground := by
  refine Holds.bind (Holds.inContext (holds_remove trivial ?_ fun _ _ _ _ => trivial))
  refine Holds.bind (holds_state (fun _ => trivial) ?_ fun _ _ _ => trivial)
  intro state allows
  split
  next writes =>
    have unlocked := allows.mp writes
    refine Holds.bind ((Node.holds_connectGuarded even).mono (fun _ _ => Node.connecting_careful) ?_
      fun _ _ _ => trivial)
    intro _ _ ended
    obtain ⟨rfl, rfl⟩ := ended
    refine Holds.bind ((holds_setLocalGuarded even false _).mono (fun _ _ => releasing_careful unlocked) ?_
      fun _ _ _ => trivial)
    intro _ _ _
    refine Holds.bind ((holds_broadcast even false).mono (fun _ _ => telling_careful) ?_ fun _ _ _ => trivial)
    exact fun _ _ _ => Holds.pure trivial
  next => exact Holds.pure trivial

end Readonly

end QuorumWarden
