import QuorumWarden.Proofs.ActionRules
import QuorumWarden.Readonly

/-! The ground a node stands on: its markers and the read-only flags of its databases. Only
setting a flag changes a flag, and only using a marker changes a marker; a request that fails
may have taken effect all the same. -/

namespace QuorumWarden

structure Ground where
  markers : Markers := {}
  readonly : String → Bool := fun _ => false

namespace Ground

def setReadonly (ground : Ground) (database : String) (enabled : Bool) : Ground :=
  { ground with readonly := fun other => if other = database then enabled else ground.readonly other }

def setMarker (ground : Ground) (marker : Marker) (text : Option String) : Ground :=
  { ground with markers := ground.markers.set marker text }

def Unlocked (ground : Ground) : Prop := ground.markers.zombieLock = none ∧ ground.markers.readonlyLock = none

instance (ground : Ground) : Decidable ground.Unlocked := instDecidableAnd

/-- What a prompt may answer and leave; only markers are on the ground. -/
def prompt : (asked : Prompt) → Ground → asked.Reply → Ground → Prop
  | .readMarker marker, before, reply, after =>
    after = before ∧ ∀ text, reply = .ok text → text = before.markers.get marker
  | .writeMarker marker text, before, reply, after =>
    after = before ∧ reply ≠ .ok () ∨ after = before.setMarker marker (some text)
  | .removeMarker marker, before, reply, after =>
    after = before ∧ reply ≠ .ok () ∨ after = before.setMarker marker none
  | _, before, _, after => after = before

theorem prompt_held {marker : Marker} {ground : Ground} {text : Option String} (held : ground.markers.get marker = text) :
    prompt (.readMarker marker) ground (.ok text) ground :=
  ⟨rfl, fun _ told => (Except.ok.inj told).symm.trans held.symm⟩

theorem prompt_readonly {asked : Prompt} {before after : Ground} {reply : asked.Reply}
    (answered : prompt asked before reply after) : after.readonly = before.readonly := by
  cases asked with
  | readMarker marker => exact congrArg Ground.readonly answered.1
  | writeMarker marker text | removeMarker marker =>
    rcases answered with ⟨rfl, _⟩ | rfl
    · rfl
    · rfl
  | _ => exact congrArg Ground.readonly answered

end Ground

/-- The database server of a node. One that does not heed may leave a flag as it was and
report success. -/
structure Server where
  host : String
  databases : List String
  heeds : Bool

namespace Server

variable (server : Server)

def userDatabases : List String := server.databases.filter fun name => !Readonly.isSystemDatabase name

def Readonly (ground : Ground) : Prop := ∀ database ∈ server.userDatabases, ground.readonly database = true

def Writable (ground : Ground) : Prop := ∀ database ∈ server.userDatabases, ground.readonly database = false

/-- What a call on this server may answer and leave; other calls leave all as it is. -/
def call : (made : Call) → Ground → made.Reply → Ground → Prop
  | .databases host, before, reply, after =>
    after = before ∧ (host = server.host → ∀ names, reply = .ok names → names = server.databases)
  | .readonly host database, before, reply, after =>
    after = before ∧ (host = server.host → ∀ flag, reply = .ok flag → flag = before.readonly database)
  | .setReadonly host database enabled, before, reply, after =>
    after = before ∧ (host = server.host → server.heeds = true → reply ≠ .ok ()) ∨
      host = server.host ∧ after = before.setReadonly database enabled
  | _, before, _, after => after = before

def surroundings : Surroundings Ground := ⟨server.call, Ground.prompt⟩

def law : Law Request Request.Reply Ground := server.surroundings.law

/-- From one ground to another by setting flags of user databases one way. -/
structure Toward (enabled : Bool) (before after : Ground) : Prop where
  markers : after.markers = before.markers
  flags : ∀ database, after.readonly database = before.readonly database ∨
    database ∈ server.userDatabases ∧ after.readonly database = enabled

variable {server}

theorem Toward.refl {enabled : Bool} (ground : Ground) : server.Toward enabled ground ground :=
  ⟨rfl, fun _ => Or.inl rfl⟩

theorem Toward.trans {enabled : Bool} {first second third : Ground} (one : server.Toward enabled first second)
    (two : server.Toward enabled second third) : server.Toward enabled first third := by
  refine ⟨two.markers.trans one.markers, fun database => ?_⟩
  rcases two.flags database with same | set
  · rw [same]
    exact one.flags database
  · exact Or.inr set

theorem Toward.set {enabled : Bool} {database : String} (user : database ∈ server.userDatabases) (ground : Ground) :
    server.Toward enabled ground (ground.setReadonly database enabled) := by
  refine ⟨rfl, fun other => ?_⟩
  by_cases same : other = database
  · exact Or.inr ⟨same ▸ user, by simp [Ground.setReadonly, same]⟩
  · exact Or.inl (by simp [Ground.setReadonly, same])

/-- A flag that already stands the way all are set keeps standing so. -/
theorem Toward.stays {enabled : Bool} {before after : Ground} (toward : server.Toward enabled before after)
    {database : String} (set : before.readonly database = enabled) : after.readonly database = enabled := by
  rcases toward.flags database with same | ⟨_, set'⟩
  · exact same.trans set
  · exact set'

end Server

end QuorumWarden
