import QuorumWarden.Proofs.ActionReturns
import QuorumWarden.Proofs.FenceOperations
import QuorumWarden.Proofs.RecordedRuns
import QuorumWarden.Watch.ReadonlyMirror

/-! When a pass of the mirror may let writes in. It looks at the zombie lock before it does, and at
no other lock. -/

namespace QuorumWarden

open QuorumWarden.Action

def Call.Releases (made : Call) : Prop := ∃ host database, made = .setReadonly host database false

def Request.Releases (request : Request) : Prop := ∃ made, request.call? = some made ∧ made.Releases

namespace ReadonlyMirror

variable {markers : Markers} {ground : Ground} {host : String}

/-- With the markers as they are, something is asked for that releases no database. -/
def Sparing (markers : Markers) (request : Request) (now : Ground) : Prop :=
  Asking (fun made => ¬made.Releases) (·.markers = markers) request now ∨
    now.markers = markers ∧ ∃ marker, request = .prompt (.readMarker marker)

theorem Sparing.spares {request : Request} {now : Ground} (sparing : Sparing markers request now) :
    ¬request.Releases := by
  rintro ⟨made, called, releases⟩
  rcases sparing with ⟨_, asked⟩ | ⟨_, marker, rfl⟩
  · cases request with
    | prompt asked => cases called
    | await wait | awaitOrStop wait =>
      cases wait with
      | call made =>
        cases called
        exact asked releases
      | _ => cases called
  · cases called

variable {α : Type} {good : α → Ground → Prop} {action : Action α}

/-- The action asks for no release and leaves the markers alone, however it ends. -/
def Spares (markers : Markers) (action : Action α) (ground : Ground) : Prop :=
  Holds Ground.openPorts.law (Sparing markers) (fun _ after => after.markers = markers)
    (fun _ after => after.markers = markers) action ground

theorem holds_sparingRequest (made : Call) {good : made.Payload → Ground → Prop} (kept : ground.markers = markers)
    (spares : ¬made.Releases) (found : ∀ value after, after.markers = markers → good value after) :
    Holds Ground.openPorts.law (Sparing markers) good (fun _ after => after.markers = markers) (request made) ground := by
  apply Holds.request made (Or.inl ⟨kept, spares⟩)
  · exact fun value after answered => found value after ((answered : after.markers = _).trans kept)
  · exact fun _ after answered => (answered : after.markers = _).trans kept

theorem holds_sparingGuarded (kept : ground.markers = markers)
    (holds : Holds Ground.openPorts.law (Sparing markers) good (fun _ after => after.markers = markers) action ground) :
    Holds Ground.openPorts.law (Sparing markers) good (fun _ after => after.markers = markers) (guarded action) ground := by
  apply Holds.guarded ?_ (Or.inl ⟨kept, Or.inl rfl⟩) ?_ holds
  · constructor
    · intro wait state sparing
      rcases sparing with asking | ⟨_, _, looks⟩
      · cases wait <;> exact Or.inl asking
      · cases looks
    · exact fun wait before reply after answered => answered
    · intro wait before after sparing left
      rcases sparing with ⟨kept, asked⟩ | ⟨_, _, looks⟩
      · cases wait with
        | call made =>
          rcases left with rfl | ⟨reply, answered⟩
          · exact kept
          · exact (answered : after.markers = _).trans kept
        | _ => exact asked.elim
      · cases looks
  · exact fun stop after same => ⟨same, fun _ => kept⟩

variable {session : Session}

theorem spares_survey (kept : ground.markers = markers) : Spares markers (guarded (Node.survey host)) ground := by
  apply holds_sparingGuarded kept
  refine Holds.bind (Holds.inContext (Holds.bind (holds_sparingRequest (.connect host) kept (by simp [Call.Releases]) ?_)))
  intro _ between kept
  refine Holds.pure (Holds.bind (Holds.inContext (Holds.bind (holds_sparingRequest (.listMembers host) kept
    (by simp [Call.Releases]) ?_))))
  exact fun _ _ kept => Holds.pure (Holds.pure kept)

theorem spares_userDatabases (kept : ground.markers = markers) :
    Spares markers (Readonly.userDatabases session) ground :=
  Holds.bind (holds_sparingRequest (.databases session.host) kept (by simp [Call.Releases]) fun _ _ kept => Holds.pure kept)

theorem spares_allReadonly (kept : ground.markers = markers) (databases : List String) :
    Spares markers (Readonly.allReadonly session databases) ground := by
  induction databases generalizing ground with
  | nil => exact Holds.pure kept
  | cons database databases ih =>
    refine Holds.bind (holds_sparingRequest (.readonly session.host database) kept (by simp [Call.Releases]) ?_)
    intro flag _ kept
    cases flag with
    | true => exact ih kept
    | false => exact Holds.pure kept

theorem spares_localState (kept : ground.markers = markers) :
    Spares markers (Readonly.localState session) ground := by
  refine (spares_userDatabases kept).andThen fun databases _ kept => ?_
  exact spares_allReadonly kept databases

theorem spares_setEach (kept : ground.markers = markers) (databases : List String) :
    Spares markers (Readonly.setEach session true databases) ground := by
  induction databases generalizing ground with
  | nil => exact Holds.pure kept
  | cons database databases ih =>
    exact Holds.bind (holds_sparingRequest (.setReadonly session.host database true) kept (by simp [Call.Releases])
      fun _ _ kept => ih kept)

theorem spares_setLocal (kept : ground.markers = markers) :
    Spares markers (Readonly.setLocal session true) ground := by
  refine (spares_userDatabases kept).andThen fun databases _ kept => ?_
  exact (spares_setEach kept databases).andThen fun _ _ kept => Holds.pure kept

theorem holds_heldZombie (locked : markers.zombieLock ≠ none) (kept : ground.markers = markers) :
    Holds Ground.openPorts.law (Sparing markers) (fun held after => held = true ∧ after.markers = markers)
      (fun _ after => after.markers = markers) Fence.isZombie ground := by
  refine Holds.bind ⟨Or.inr ⟨kept, _, rfl⟩, fun reply after answered => ?_⟩
  obtain ⟨rfl, told⟩ := answered
  cases reply with
  | error failure => exact kept
  | ok text =>
    have held : text = markers.zombieLock := kept ▸ told text rfl
    exact Holds.run (Holds.pure ⟨by rw [held, Option.isSome_iff_ne_none]; exact locked, kept⟩)

/-- Under a zombie lock a pass asks for no release, whatever its ports answer. -/
theorem spares_sync (locked : markers.zombieLock ≠ none) (kept : ground.markers = markers) :
    Spares markers (sync host) ground := by
  refine (spares_survey kept).andThen ?_
  rintro ⟨session, topology⟩ _ kept
  refine Holds.bind (Holds.liftExcept (fun row _ => ?_) fun _ _ => kept)
  split
  · exact Holds.pure kept
  cases topology.primary? with
  | none => exact Holds.throw kept
  | some primary =>
    refine Holds.bind (Holds.inContext (holds_sparingGuarded kept (holds_sparingRequest
      (.peerReadonly primary.hostname) kept (by simp [Call.Releases]) fun wanted _ kept => ?_)))
    refine (holds_sparingGuarded kept (spares_userDatabases kept)).andThen fun databases _ kept => ?_
    split
    · exact Holds.pure kept
    refine (holds_sparingGuarded kept (spares_localState kept)).andThen fun current _ kept => ?_
    split
    · exact Holds.pure kept
    cases wanted with
    | false =>
      -- the marker was not written since, so the look at it finds it and the pass ends
      refine (holds_heldZombie locked kept).andThen ?_
      rintro _ _ ⟨rfl, kept⟩
      exact Holds.pure kept
    | true =>
      refine Holds.bind (Holds.pure ?_)
      refine (holds_sparingGuarded kept (spares_setLocal kept)).andThen fun _ _ kept => ?_
      refine Holds.bind (Holds.lift ⟨Or.inl ⟨kept, Or.inr ⟨_, rfl⟩⟩, fun _ after same => ?_⟩)
      exact Holds.pure ((congrArg Ground.markers (same : after = _)).trans kept)

/-- Some run of the action is about to release a database. -/
def Releasing (action : Action α) (before : Ground) : Prop :=
  ∃ trace rest after, Program.Steps Ground.openPorts.law action.run before trace rest after ∧
    ∃ request ∈ rest.pending, request.Releases

theorem Releasing.of_first {β : Type} {next : α → Action β} (releasing : Releasing action ground) :
    Releasing (action >>= next) ground := by
  obtain ⟨trace, rest, after, steps, request, pending, releases⟩ := releasing
  exact ⟨trace, _, after, steps.bind_left _, request, Program.pending_bind pending _, releases⟩

theorem Releasing.of_rest {β : Type} {next : α → Action β} {value : α} {between : Ground}
    (returns : Returns Ground.openPorts.law action ground value between) (releasing : Releasing (next value) between) :
    Releasing (action >>= next) ground := by
  obtain ⟨first, ran⟩ := returns
  obtain ⟨second, rest, after, steps, pending⟩ := releasing
  exact ⟨first ++ second, rest, after, runs_bind ran steps, pending⟩

theorem returns_guardedRequest (made : Call) (value : made.Payload) (ground : Ground) :
    Returns Ground.openPorts.law (guarded (request made)) ground value ground := by
  have asked : Program.Runs Ground.openPorts.law (request made).run ground [⟨.await (.call made), .ok value⟩] (.ok value)
      ground := .ask rfl .refl
  exact runs_guarded rfl asked (by simp [Program.Event.stops])

theorem returns_userDatabases (ground : Ground) :
    Returns Ground.openPorts.law (guarded (Readonly.userDatabases session)) ground ["app"] ground := by
  have listed : Program.Runs Ground.openPorts.law (Readonly.userDatabases session).run ground
      [⟨.await (.call (.databases session.host)), .ok ["app"]⟩] (.ok ["app"]) ground := .ask rfl .refl
  exact runs_guarded rfl listed (by simp [Program.Event.stops])

theorem returns_localState (ground : Ground) :
    Returns Ground.openPorts.law (guarded (Readonly.localState session)) ground true ground := by
  have read : Program.Runs Ground.openPorts.law (Readonly.localState session).run ground
      [⟨.await (.call (.databases session.host)), .ok ["app"]⟩,
        ⟨.await (.call (.readonly session.host "app")), .ok true⟩] (.ok true) ground := .ask rfl (.ask rfl .refl)
  exact runs_guarded rfl read (by simp [Program.Event.stops])

theorem releases_interruptible {rest : Procedure α} {asked : Request} (pending : asked ∈ rest.pending)
    (releases : asked.Releases) : ∃ request ∈ rest.interruptible.pending, request.Releases := by
  cases rest with
  | done value => cases pending
  | ask first next =>
    cases pending
    obtain ⟨made, called, releases⟩ := releases
    cases asked with
    | prompt prompt => cases called
    | await wait | awaitOrStop wait =>
      rw [Procedure.interruptible]
      cases wait with
      | call other => exact ⟨_, rfl, made, called, releases⟩
      | _ => cases called

theorem releasing_setLocal (ground : Ground) : Releasing (guarded (Readonly.setLocal session false)) ground := by
  obtain ⟨rest, steps, pending⟩ : ∃ rest, Program.Steps Ground.openPorts.law (Readonly.setLocal session false).run ground
      [⟨.await (.call (.databases session.host)), .ok ["app"]⟩] rest ground ∧
      rest.pending = some (.await (.call (.setReadonly session.host "app" false))) := by
    refine ⟨_, .ask rfl .refl, ?_⟩
    exact rfl
  obtain ⟨request, pending, releases⟩ := releases_interruptible pending ⟨_, rfl, _, _, rfl⟩
  obtain ⟨trace, steps⟩ := steps_guarded rfl steps (by simp [Program.Event.stops])
  exact ⟨trace, _, ground, steps, request, Program.pending_bind pending _, releases⟩

/-- All flags are set and the primary's is not: nothing but a zombie lock keeps a pass from releasing. -/
theorem releasing_sync (host : String) (unlocked : ground.markers.zombieLock = none) : Releasing (sync host) ground := by
  let members : List Member := [⟨1, host, "default", true, .standby⟩, ⟨2, "host-1", "default", true, .primary⟩]
  have surveyed : Returns Ground.openPorts.law (guarded (Node.survey host)) ground (⟨host⟩, ⟨members⟩) ground :=
    Node.runs_survey rfl rfl rfl
  have row : (⟨members⟩ : Topology).row host = .ok ⟨1, host, "default", true, .standby⟩ := by
    simp [Topology.row, Topology.member?, members]
  have unheld : Returns Ground.openPorts.law Fence.isZombie ground false ground := by
    have read : Ground.openPorts.law (.prompt (.readMarker .zombieLock)) ground (.ok none) ground :=
      Ground.prompt_held unlocked
    exact ⟨_, .ask read .refl⟩
  refine .of_rest surveyed ?_
  simp only [row]
  refine .of_rest (returns_pure_iff.mpr ⟨rfl, rfl⟩) ?_
  refine .of_rest (returns_inContext_iff.mpr (returns_guardedRequest (.peerReadonly "host-1") false ground)) ?_
  refine .of_rest (returns_userDatabases ground) ?_
  refine .of_rest (returns_localState ground) ?_
  refine .of_rest unheld ?_
  exact .of_first (releasing_setLocal ground)

/-- Whatever the primary and the ports say, a pass is safe from releasing a database exactly under a
zombie lock. -/
theorem spares_iff_zombie (host : String) (ground : Ground) :
    ¬Releasing (sync host) ground ↔ ground.markers.zombieLock ≠ none := by
  constructor
  · intro spares unlocked
    exact spares (releasing_sync host unlocked)
  · rintro locked ⟨trace, rest, after, steps, request, pending, releases⟩
    have sparing := ((spares_sync locked rfl).run.steps steps).pending request pending
    exact sparing.spares releases

/-- A readonly lock alone does not keep a pass from letting writes in. -/
theorem readonly_lock_overrun : ∃ (host : String) (ground : Ground), ground.markers.readonlyLock ≠ none ∧
    ¬ground.Unlocked ∧ Releasing (sync host) ground :=
  ⟨"host-2", { markers := { readonlyLock := some "" } }, by simp, by simp [Ground.Unlocked], releasing_sync _ rfl⟩

end ReadonlyMirror

end QuorumWarden
