import QuorumWarden.Proofs.GroundRules

/-! Setting, verifying and announcing the read-only flags of a node. Setting moves the ground
toward the flag and leaves the markers alone; the rest leaves the ground as it is. -/

namespace QuorumWarden.Readonly

open QuorumWarden.Action

variable {server : Server} {admits : Program.Event Request.Reply → Prop} {ground : Ground}

def Lists (server : Server) (made : Call) : Prop := made = .databases server.host

def Sets (server : Server) (enabled : Bool) (made : Call) : Prop :=
  ∃ database ∈ server.userDatabases, made = .setReadonly server.host database enabled

def Checks (server : Server) (made : Call) : Prop := ∃ database, made = .readonly server.host database

def Tells (server : Server) (enabled : Bool) (made : Call) : Prop :=
  made = .listMembers server.host ∨ ∃ peer, made = .setPeerReadonly peer enabled

def Blamed (admits : Program.Event Request.Reply → Prop) (calls : Call → Prop) : Prop :=
  MayStop admits ∨ MayFail admits calls

theorem Blamed.troubled {calls : Call → Prop} (blamed : Blamed admits calls) : Troubled admits := by
  rcases blamed with ⟨event, admitted, stops⟩ | ⟨made, failure, _, admitted⟩
  · exact ⟨event, admitted, Or.inl stops⟩
  · exact ⟨_, admitted, Or.inr (Option.some_ne_none failure)⟩

theorem holds_userDatabases {good : List String → Ground → Prop} {bad : Failure → Ground → Prop}
    {asks : Request → Ground → Prop} (asked : asks (.await (.call (.databases server.host))) ground)
    (listed : good server.userDatabases ground)
    (failed : ∀ failure, admits ⟨.await (.call (.databases server.host)), .error failure⟩ → bad failure ground) :
    Holds (server.law.restrict admits) asks good bad (userDatabases ⟨server.host⟩) ground := by
  refine Holds.bind (Holds.request (.databases server.host) asked ?_ ?_)
  · intro names after effect
    obtain ⟨⟨same, told⟩, _⟩ := effect
    have names := told rfl names rfl
    subst same names
    exact Holds.pure listed
  · intro failure after effect
    obtain ⟨⟨same, _⟩, admitted⟩ := effect
    subst same
    exact failed failure admitted

theorem toward_of_set {enabled : Bool} {database : String} (user : database ∈ server.userDatabases)
    {before after : Ground} {reply : Outcome Unit}
    (answered : server.call (.setReadonly server.host database enabled) before reply after) :
    server.Toward enabled before after ∧
      (server.heeds = true → reply = .ok () → after.readonly database = enabled) := by
  rcases answered with ⟨rfl, heedless⟩ | ⟨_, rfl⟩
  · exact ⟨.refl _, fun heeds success => absurd success (heedless rfl heeds)⟩
  · exact ⟨.set user before, fun _ _ => by simp [Ground.setReadonly]⟩

theorem holds_setEach (enabled : Bool) {names : List String} (users : ∀ name ∈ names, name ∈ server.userDatabases)
    {start : Ground} (toward : server.Toward enabled start ground) :
    Holds (server.law.restrict admits) (Asking (Sets server enabled) (server.Toward enabled start))
      (fun _ after => server.Toward enabled ground after ∧
        (server.heeds = true → ∀ name ∈ names, after.readonly name = enabled))
      (fun _ after => server.Toward enabled start after ∧ MayFail admits (Sets server enabled))
      (setEach ⟨server.host⟩ enabled names) ground := by
  induction names generalizing ground with
  | nil => exact Holds.pure ⟨.refl ground, by simp⟩
  | cons name names ih =>
    obtain ⟨user, users⟩ := List.forall_mem_cons.mp users
    refine Holds.bind (Holds.request (.setReadonly server.host name enabled) ⟨toward, name, user, rfl⟩ ?_ ?_)
    · intro _ between effect
      obtain ⟨answered, _⟩ := effect
      obtain ⟨moved, set⟩ := toward_of_set user answered
      refine Holds.mono (ih users (toward.trans moved)) (fun _ _ asked => asked) ?_ fun _ _ failed => failed
      intro _ after ⟨onward, rest⟩
      refine ⟨moved.trans onward, fun heeds => List.forall_mem_cons.mpr ⟨?_, rest heeds⟩⟩
      exact onward.stays (set heeds rfl)
    · intro failure after effect
      obtain ⟨answered, admitted⟩ := effect
      exact ⟨toward.trans (toward_of_set user answered).1, _, failure, ⟨name, user, rfl⟩, admitted⟩

theorem holds_setLocal (enabled : Bool) (ground : Ground) :
    Holds (server.law.restrict admits)
      (Asking (fun made => Lists server made ∨ Sets server enabled made) (server.Toward enabled ground))
      (fun names after => names = server.userDatabases ∧ server.Toward enabled ground after ∧
        (server.heeds = true → ∀ name ∈ server.userDatabases, after.readonly name = enabled))
      (fun _ after => server.Toward enabled ground after ∧
        MayFail admits fun made => Lists server made ∨ Sets server enabled made)
      (setLocal ⟨server.host⟩ enabled) ground := by
  have start : server.Toward enabled ground ground := .refl ground
  refine Holds.bind (holds_userDatabases ⟨start, Or.inl rfl⟩ ?_ ?_)
  · refine Holds.bind (Holds.mono (holds_setEach enabled (fun _ member => member) start) ?_ ?_ ?_)
    · exact fun request ground asked => asked.imp (fun _ => Or.inr) id
    · intro _ after ⟨toward, set⟩
      exact Holds.pure ⟨rfl, toward, set⟩
    · intro _ after effect
      obtain ⟨toward, made, failure, sets, admitted⟩ := effect
      exact ⟨toward, made, failure, Or.inr sets, admitted⟩
  · intro failure admitted
    exact ⟨start, _, failure, Or.inl rfl, admitted⟩

theorem setLocal_keeps (enabled : Bool) (ground : Ground) :
    server.Keeps (fun made => Lists server made ∨ Sets server enabled made) (server.Toward enabled ground) := by
  intro made before reply after asked toward answered
  rcases asked with rfl | ⟨database, user, rfl⟩
  · exact answered.1 ▸ toward
  · exact toward.trans (toward_of_set user answered).1

theorem holds_verify {names : List String} :
    Holds (server.law.restrict admits) (Asking (Checks server) (· = ground))
      (fun _ after => after = ground ∧ ∀ name ∈ names, ground.readonly name = true)
      (fun _ after => after = ground ∧
        (MayFail admits (Checks server) ∨ ∃ name ∈ names, ground.readonly name = false))
      (verify ⟨server.host⟩ names) ground := by
  induction names with
  | nil => exact Holds.pure ⟨rfl, by simp⟩
  | cons name names ih =>
    refine Holds.bind (Holds.request (.readonly server.host name) ⟨rfl, name, rfl⟩ ?_ ?_)
    · intro flag after effect
      obtain ⟨⟨same, told⟩, _⟩ := effect
      have told := told rfl flag rfl
      subst same
      cases flag with
      | true =>
        refine Holds.mono ih (fun _ _ asked => asked) ?_ ?_
        · exact fun _ after ⟨same, rest⟩ => ⟨same, List.forall_mem_cons.mpr ⟨told.symm, rest⟩⟩
        · intro _ after ended
          obtain ⟨same, failed⟩ := ended
          exact ⟨same, failed.imp_right fun ⟨name, member, writable⟩ => ⟨name, by simp [member], writable⟩⟩
      | false => exact Holds.throw ⟨rfl, Or.inr ⟨name, by simp, told.symm⟩⟩
    · intro failure after effect
      obtain ⟨⟨same, _⟩, admitted⟩ := effect
      exact ⟨same, Or.inl ⟨_, failure, ⟨name, rfl⟩, admitted⟩⟩

theorem verify_keeps (ground : Ground) : server.Keeps (Checks server) (· = ground) :=
  Server.keeps_same ground (by rintro _ ⟨_, rfl⟩ _ _ _; simp)

theorem tells_keeps (enabled : Bool) (ground : Ground) : server.Keeps (Tells server enabled) (· = ground) :=
  Server.keeps_same ground (by rintro _ (rfl | ⟨_, rfl⟩) _ _ _ <;> simp)

theorem holds_tellEach (even : Evenhanded admits) (enabled : Bool) (peers : List Member) (told : Broadcast) :
    Holds (server.law.restrict admits) (Asking (Tells server enabled) (· = ground)) (fun _ after => after = ground)
      (fun _ after => after = ground ∧ Blamed admits (Tells server enabled)) (tellEach enabled peers told) ground := by
  induction peers generalizing told with
  | nil => exact Holds.pure rfl
  | cons peer peers ih =>
    refine Holds.bind (Holds.settled (holds_guarded even (tells_keeps enabled ground) rfl ?_
      (Holds.request (.setPeerReadonly peer.hostname enabled) ⟨rfl, Or.inr ⟨_, rfl⟩⟩ ?_ ?_)))
    · exact fun after same may => ⟨same, Or.inl may⟩
    · intro _ after ended
      obtain ⟨same, _⟩ := ended
      subst same
      exact ih _
    · intro failure after effect
      obtain ⟨same, admitted⟩ := effect
      subst same
      split
      · exact ⟨rfl, Or.inr ⟨_, failure, Or.inr ⟨_, rfl⟩, admitted⟩⟩
      · exact Holds.bind (holds_count ⟨rfl, Or.inr ⟨_, rfl⟩⟩ (ih _))

theorem holds_broadcast (even : Evenhanded admits) (enabled : Bool) :
    Holds (server.law.restrict admits) (Asking (Tells server enabled) (· = ground)) (fun _ after => after = ground)
      (fun _ after => after = ground ∧ Blamed admits (Tells server enabled))
      (broadcast server.host ⟨server.host⟩ enabled) ground := by
  refine Holds.bind (holds_guarded even (tells_keeps enabled ground) rfl ?_
    (Holds.inContext (Holds.bind (Holds.request (.listMembers server.host) ⟨rfl, Or.inl rfl⟩ ?_ ?_))))
  · exact fun after same may => ⟨same, Or.inl may⟩
  · intro members after ended
    obtain ⟨same, _⟩ := ended
    subst same
    exact Holds.pure (holds_tellEach even enabled _ _)
  · intro failure after effect
    obtain ⟨same, admitted⟩ := effect
    exact ⟨same, Or.inr ⟨_, failure, Or.inl rfl, admitted⟩⟩

end QuorumWarden.Readonly
