import QuorumWarden.Proofs.GivingWay
import QuorumWarden.Proofs.PassRules
import QuorumWarden.Proofs.StageFrames
import QuorumWarden.Simulation.DutyCrew

/-! No failure of a collaborator ends a duty. Every failure comes to the round that it belongs to, through all contexts,
and only a cancellation would be taken for a stop; none of the duties' own failures is one. -/

namespace QuorumWarden

namespace Action

variable {α β : Type} {calm : Prop} {action : Action α}

/-- The action keeps off the group, and where it is calm it does not fail as cancelled. -/
abbrev Steady (calm : Prop) (action : Action α) : Prop :=
  Holds (Law.when calm) (fun request _ => request.SparesGroup) (fun _ _ => True)
    (fun failure _ => calm → failure.isCancelled = false) action ()

theorem Steady.bind {next : α → Action β} (steady : Steady calm action) (onward : ∀ value, Steady calm (next value)) :
    Steady calm (action >>= next) := steady.andThen fun value _ _ => onward value

theorem steady_pure (value : α) : Steady calm (pure value) := Holds.pure trivial

theorem steady_throw {failure : Failure} (uncancelled : failure.isCancelled = false) :
    Steady calm (throw failure : Action α) := Holds.throw fun _ => uncancelled

theorem Steady.inContext {context : String} (steady : Steady calm action) : Steady calm (inContext context action) :=
  Holds.inContext (steady.mono (fun _ _ asked => asked) (fun _ _ _ => trivial) fun _ _ uncancelled => uncancelled)

theorem steady_request (made : Call) : Steady calm (request made) := by
  refine Holds.request made trivial (fun _ _ _ => trivial) fun failure _ lawful calm => ?_
  exact lawful calm failure rfl

theorem steady_outcome {request : Request} {answer : request.Reply → Outcome α} (spares : request.SparesGroup)
    (fine : ∀ reply, request.Calm reply → (answer reply).Uncancelled) :
    Steady calm (ExceptT.mk (.ask request fun reply => .done (answer reply))) := by
  refine ⟨spares, fun reply _ lawful => ?_⟩
  have uncancelled : calm → (answer reply).Uncancelled := fun calm => fine reply (lawful calm)
  simp only [Program.Holds]
  split
  next => trivial
  next failure failed => exact fun calm => uncancelled calm failure failed

theorem steady_prompt (asked : Prompt) (spares : (Request.prompt asked).SparesGroup) :
    Steady calm (ExceptT.lift (Procedure.prompt asked)) := Holds.lift ⟨spares, fun _ _ _ => trivial⟩

/-- A stop is the one reason for a wait to be given up, and where it is calm there is none. -/
theorem yields_when {bad : Prop} : Yields (Law.when calm) (fun request _ => request.SparesGroup) fun _ => calm → bad where
  asked := fun wait _ spares => Request.spares_awaitOrStop.mpr spares
  heard := fun wait _ reply _ lawful calm => by
    obtain ⟨_, same, heard⟩ := lawful calm
    cases same
    exact heard
  left := fun wait _ _ _ lawful calm => by
    obtain ⟨_, same, _⟩ := lawful calm
    cases same

theorem Steady.guarded (steady : Steady calm action) : Steady calm (guarded action) := by
  refine Holds.guarded yields_when trivial (fun stop _ lawful => ⟨rfl, ?_⟩) steady
  rintro rfl calm
  cases lawful calm

/-- What fails only as cancelled does not fail where it is calm. -/
theorem Steady.settles (steady : Steady calm action) : Holds (Law.when calm) (fun request _ => request.SparesGroup)
    (fun _ _ => True) (fun _ _ => ¬calm) (settled action) () := by
  refine Holds.settled (steady.mono (fun _ _ asked => asked) (fun _ _ _ => trivial) fun failure _ uncancelled => ?_)
  split
  next cancelled => exact fun calm => Bool.false_ne_true ((uncancelled calm).symm.trans cancelled)
  next => trivial

theorem Steady.settled (steady : Steady calm action) : Steady calm (settled action) :=
  steady.settles.mono (fun _ _ asked => asked) (fun _ _ _ => trivial) fun _ _ loud calm => absurd calm loud

end Action

open QuorumWarden.Action

variable {calm : Prop} {host : String} {session : Session}

namespace Fence

theorem steady_holds (marker : Marker) : Steady calm (holds marker : Action Bool) := by
  have reads : Steady calm (read marker : Action (Option String)) := steady_outcome trivial fun _ calm => calm
  exact reads.bind fun _ => steady_pure _

theorem steady_state : Steady calm (state : Action FenceState) := by
  have reads : Steady calm (read .zombieLock : Action (Option String)) := steady_outcome trivial fun _ calm => calm
  refine reads.bind fun text => ?_
  cases text with
  | some text => exact steady_pure _
  | none => exact (steady_holds .readonlyLock).bind fun _ => steady_pure _

theorem steady_takeZombieLock (deferredTo : String) : Steady calm (takeZombieLock deferredTo : Action Unit) :=
  Steady.inContext (steady_outcome trivial fun _ calm => calm)

theorem steady_dropZombieLock : Steady calm (dropZombieLock : Action Unit) :=
  Steady.inContext (steady_outcome trivial fun _ calm => calm)

end Fence

theorem steady_count (counter : Counter) : Steady calm (ExceptT.lift (Procedure.count counter)) := steady_prompt _ trivial

theorem Session.steady_connect : Steady calm (Session.connect host : Action Session) :=
  (steady_request _).bind fun _ => steady_pure _

theorem Topology.steady_fetch : Steady calm (Topology.fetch session) :=
  Steady.inContext ((steady_request _).bind fun _ => steady_pure _)

namespace Node

theorem steady_connect : Steady calm (connect host) := Steady.inContext Session.steady_connect

theorem steady_survey : Steady calm (survey host) :=
  steady_connect.bind fun _ => Topology.steady_fetch.bind fun _ => steady_pure _

theorem steady_role : Steady calm (role host) := steady_survey.bind fun _ => steady_pure _

theorem steady_row (topology : Topology) : Steady calm (liftExcept (topology.row host)) := by
  refine Holds.liftExcept (fun _ _ => trivial) fun failure unlisted _ => ?_
  unfold Topology.row at unlisted
  split at unlisted <;> cases unlisted
  rfl

end Node

namespace Readonly

theorem steady_userDatabases : Steady calm (userDatabases session) := (steady_request _).bind fun _ => steady_pure _

theorem steady_setEach (enabled : Bool) (databases : List String) : Steady calm (setEach session enabled databases) := by
  induction databases with
  | nil => exact steady_pure _
  | cons database rest ih => exact (steady_request _).bind fun _ => ih

theorem steady_setLocal (enabled : Bool) : Steady calm (setLocal session enabled) :=
  steady_userDatabases.bind fun databases => (steady_setEach enabled databases).bind fun _ => steady_pure _

theorem steady_allReadonly (databases : List String) : Steady calm (allReadonly session databases) := by
  induction databases with
  | nil => exact steady_pure _
  | cons database rest ih =>
    refine (steady_request _).bind fun readonly => ?_
    cases readonly with
    | true => exact ih
    | false => exact steady_pure _

theorem steady_localState : Steady calm (localState session) := steady_userDatabases.bind steady_allReadonly

theorem steady_verify (databases : List String) : Steady calm (verify session databases) := by
  induction databases with
  | nil => exact steady_pure _
  | cons database rest ih =>
    refine (steady_request _).bind fun readonly => ?_
    cases readonly with
    | true => exact ih
    | false => exact steady_throw rfl

theorem steady_tellEach (enabled : Bool) (peers : List Member) (told : Broadcast) :
    Steady calm (tellEach enabled peers told) := by
  induction peers generalizing told with
  | nil => exact steady_pure _
  | cons peer rest ih =>
    refine (steady_request _).guarded.settled.bind fun answer => ?_
    cases answer with
    | ok done => exact ih _
    | error failure => exact (steady_count _).bind fun _ => ih _

theorem steady_broadcast (enabled : Bool) : Steady calm (broadcast host session enabled) :=
  Topology.steady_fetch.guarded.bind fun _ => steady_tellEach enabled _ _

end Readonly

namespace Quarantine

theorem steady_redirect (discovered : String) : Steady calm (redirect host discovered) := by
  unfold redirect
  split
  · exact steady_pure _
  · refine (steady_request _).guarded.settled.bind fun answer => ?_
    cases answer with
    | ok done => exact steady_pure _
    | error failure => exact (steady_count _).bind fun _ => steady_pure _

theorem steady_engage (discovered : String) : Steady calm (engage host session discovered) := by
  refine (steady_redirect _).bind fun redirected => ?_
  refine (Fence.steady_takeZombieLock _).bind fun _ => ?_
  refine (Steady.inContext (Readonly.steady_setLocal true).guarded).bind fun databases => ?_
  refine (Readonly.steady_broadcast true).bind fun broadcast => ?_
  refine (Readonly.steady_verify databases).guarded.bind fun _ => ?_
  exact (steady_count _).bind fun _ => steady_pure _

theorem steady_lift : Steady calm (lift host session) := by
  refine Fence.steady_dropZombieLock.bind fun _ => ?_
  refine (steady_count _).bind fun _ => ?_
  refine Fence.steady_state.bind fun fence => ?_
  split
  · refine (Steady.inContext (Readonly.steady_setLocal false).guarded).bind fun _ => ?_
    exact (Readonly.steady_broadcast false).bind fun _ => steady_pure _
  · exact steady_pure _

end Quarantine

namespace Sample

theorem probe_mild (standby : Member) : Mild (probe standby) := by
  rw [probe_eq]
  refine ⟨trivial, fun reply _ _ => ?_⟩
  cases reply with
  | error failure => exact Outcome.uncancelled_ok _
  | ok session =>
    refine ⟨trivial, fun asked _ uncancelled => ?_⟩
    cases asked with
    | ok primary => exact Outcome.uncancelled_ok _
    | error failure =>
      change Outcome.Uncancelled (.error (failure.within ("query primary view of " ++ standby.hostname)))
      rintro _ ⟨⟩
      exact uncancelled failure rfl

/-- The first failure heard is that of the whole sample. -/
theorem mapM_uncancelled {heard : List (Outcome Report)} (uncancelled : ∀ outcome ∈ heard, outcome.Uncancelled) :
    Outcome.Uncancelled (heard.mapM id : Outcome (List Report)) := by
  induction heard with
  | nil => exact Outcome.uncancelled_ok []
  | cons outcome heard ih =>
    obtain ⟨here, later⟩ := List.forall_mem_cons.mp uncancelled
    rw [List.mapM_cons]
    cases outcome with
    | error failure => exact here.error
    | ok report =>
      have rest := ih later
      cases others : (heard.mapM id : Outcome (List Report)) with
      | error failure =>
        rw [others] at rest
        exact rest.error
      | ok reports => exact Outcome.uncancelled_ok _

theorem steady_take (standbys : List Member) : Steady calm (take host standbys) := by
  have asks : Holds (Law.when calm) (fun request _ => request.SparesGroup)
      (fun heard _ => calm → ∀ outcome ∈ heard, outcome.Uncancelled) (fun failure _ => calm → failure.isCancelled = false)
      (ExceptT.lift (Procedure.await (.gather [] (standbys.map fun standby => ⟨some 0, probe standby⟩)))) () := by
    refine Holds.lift ⟨trivial, fun heard _ lawful calm => lawful calm nofun fun strand member => ?_⟩
    obtain ⟨standby, _, rfl⟩ := List.mem_map.mp member
    exact probe_mild standby
  refine asks.andThen fun heard _ uncancelled => ?_
  have reads : Steady calm (liftExcept (heard.mapM id)) :=
    Holds.liftExcept (fun _ _ => trivial) fun failure failed calm => mapM_uncancelled (uncancelled calm) failure failed
  exact reads.bind fun _ => steady_pure _

end Sample

namespace ClusterState

theorem steady_evaluate : Steady calm (evaluate host) := by
  refine Node.steady_survey.guarded.bind fun (session, topology) => ?_
  refine (Node.steady_row topology).bind fun row => ?_
  split
  · refine (Sample.steady_take _).guarded.bind fun sample => ?_
    refine (steady_count _).bind fun _ => ?_
    refine (Fence.steady_holds .zombieLock).bind fun fenced => ?_
    split
    · split
      · exact Quarantine.steady_lift.bind fun _ => steady_pure _
      · exact steady_pure _
    · exact (Quarantine.steady_engage _).bind fun _ => steady_pure _
    · exact (Quarantine.steady_engage _).bind fun _ => steady_pure _
  · exact steady_pure _

end ClusterState

theorem ReadonlyMirror.steady_sync : Steady calm (ReadonlyMirror.sync host) := by
  refine Node.steady_survey.guarded.bind fun (session, topology) => ?_
  refine (Node.steady_row topology).bind fun row => ?_
  split
  · exact steady_pure _
  · split
    · refine (Steady.inContext (steady_request _).guarded).bind fun wanted => ?_
      refine Readonly.steady_userDatabases.guarded.bind fun databases => ?_
      split
      · exact steady_pure _
      refine Readonly.steady_localState.guarded.bind fun current => ?_
      split
      · exact steady_pure _
      cases wanted
      case' true => refine (steady_pure false).bind fun held => ?_
      case' false => refine (Fence.steady_holds .zombieLock).bind fun held => ?_
      all_goals
        cases held with
        | true => exact steady_pure _
        | false =>
          refine (Readonly.steady_setLocal _).guarded.bind fun _ => ?_
          exact (steady_count _).bind fun _ => steady_pure _
    · exact steady_throw rfl

theorem Retention.steady_prune : Steady calm (Retention.prune host) := by
  refine Node.steady_role.guarded.bind fun role => ?_
  split
  · exact steady_pure _
  · refine (steady_request .prune).guarded.bind fun _ => ?_
    exact (steady_count _).bind fun _ => steady_pure _

/-- The stop is looked at, and where it is calm there is none. -/
theorem Action.looks_for_stop : Holds (Law.when calm) (fun request _ => request.SparesGroup)
    (fun stop _ => calm → stop = false) (fun failure _ => calm → failure.isCancelled = false)
    (ExceptT.lift (Procedure.prompt .stopRequested)) () :=
  Holds.lift ⟨trivial, fun _ _ lawful => lawful⟩

theorem Action.steady_pause (millis : Nat) : Steady calm (pause millis) := by
  refine Steady.guarded (Holds.lift ?_)
  change Program.Holds _ _ _ (Procedure.alarm millis >>= fun time => Procedure.await (.sleepUntil time)) ()
  rw [Procedure.alarm_bind]
  exact ⟨trivial, fun _ _ _ => ⟨trivial, fun _ _ _ => trivial⟩⟩

/-- One attempt, and what comes after its failure. -/
theorem Backup.steady_attempt {wanted : BackupRequest} {next : Failure → Action String}
    (onward : ∀ failure, Steady calm (next failure)) :
    Steady calm (do
      if ← Procedure.prompt .stopRequested then throw .cancelled
      match ← Action.settled (Action.guarded (make wanted)) with
      | .ok output => return output
      | .error failure =>
        Procedure.count .backupAttemptsFailed
        next failure) := by
  refine looks_for_stop.andThen fun stop _ unstopped => ?_
  cases stop with
  | true => exact Holds.throw fun calm => nomatch unstopped calm
  | false =>
    refine (steady_request _).guarded.settled.bind fun made => ?_
    cases made with
    | ok output => exact steady_pure _
    | error failure => exact (steady_count _).bind fun _ => onward failure

theorem Backup.steady_attemptFrom (delay : Duration) (wanted : BackupRequest) (further number : Nat) :
    Steady calm (Backup.attemptFrom delay wanted further number) := by
  induction further generalizing number with
  | zero =>
    rw [Backup.attemptFrom]
    exact steady_attempt fun _ => steady_throw rfl
  | succ further ih =>
    rw [Backup.attemptFrom]
    exact steady_attempt fun _ => (steady_pause _).bind fun _ => ih _

theorem BackupSchedule.steady_evaluate (policy : RetryPolicy) : Steady calm (BackupSchedule.evaluate host policy) := by
  refine Node.steady_role.guarded.bind fun role => ?_
  split
  · exact steady_pure _
  refine (steady_prompt .frequency trivial).bind fun frequency => ?_
  refine (steady_request .listBackups).guarded.settled.bind fun listed => ?_
  cases listed with
  | error failure => exact steady_pure _
  | ok backups =>
    refine (steady_prompt .wallClock trivial).bind fun now => ?_
    simp only
    split
    · exact steady_pure _
    · refine (Backup.steady_attemptFrom policy.delay _ (policy.maxAttempts - 1) 1).settled.bind fun made => ?_
      cases made <;> exact (steady_count _).bind fun _ => steady_pure _

namespace Pass

variable {α β : Type} {pass : Pass α}

/-- As of an action, whatever the clocks. -/
abbrev Steady (calm : Prop) (pass : Pass α) : Prop :=
  ∀ clocks, Pass.Holds (Law.when calm) (fun request _ => request.SparesGroup) (fun _ _ _ => True)
    (fun failure _ _ => calm → failure.isCancelled = false) pass clocks ()

theorem Steady.bind {next : α → Pass β} (steady : Steady calm pass) (onward : ∀ value, Steady calm (next value)) :
    Steady calm (pass >>= next) := fun clocks => (steady clocks).andThen fun value clocks _ _ => onward value clocks

theorem Steady.whenever {first : Pass Unit} {condition : Prop} [Decidable condition] (steady : Steady calm first)
    (onward : Steady calm pass) :
    Steady calm (do
      if condition then first
      pass) := by
  split
  · exact steady.bind fun _ => onward
  · exact onward

theorem steady_pure (value : α) : Steady calm (pure value : Pass α) := fun _ => Pass.Holds.pure trivial

theorem steady_act {action : Action α} (steady : Action.Steady calm action) : Steady calm (act action) :=
  fun _ => Pass.Holds.act steady

theorem steady_update (change : Clocks → Clocks) : Steady calm (update change) := fun _ => Pass.Holds.update trivial

theorem steady_clocks : Steady calm Pass.clocks := fun _ => Pass.Holds.read trivial

end Pass

open QuorumWarden.Pass (steady_act steady_update steady_clocks)

namespace DeadMembers

theorem steady_remove (threshold : Duration) (now : Nat) (standby : Member) :
    Pass.Steady calm (remove session threshold now standby) := by
  refine (steady_update _).bind fun _ => steady_clocks.bind fun clocks => ?_
  split
  · exact Pass.steady_pure _
  · refine (steady_act (steady_request _).guarded.settled).bind fun removed => ?_
    cases removed with
    | error failure => exact Pass.steady_pure _
    | ok value => exact (steady_update _).bind fun _ => (steady_act (steady_count _)).bind fun _ => Pass.steady_pure _

theorem steady_visitEach (threshold : Duration) (now : Nat) (standbys : List Member) :
    Pass.Steady calm (visitEach session threshold now standbys) := by
  induction standbys with
  | nil => exact Pass.steady_pure _
  | cons standby rest ih =>
    have visits : Pass.Steady calm (visit session threshold now standby) := by
      refine (steady_act Session.steady_connect.guarded.settled).bind fun reached => ?_
      cases reached with
      | ok session => exact (steady_update _).bind fun _ => Pass.steady_pure _
      | error failure => exact steady_remove threshold now standby
    exact visits.bind fun _ => ih.bind fun _ => Pass.steady_pure _

theorem steady_reap (threshold : Duration) (now : Nat) : Pass.Steady calm (reap host threshold now) := by
  refine (steady_act Node.steady_survey.guarded).bind fun (session, topology) => ?_
  refine (steady_act (Node.steady_row topology)).bind fun row => ?_
  split
  · exact Pass.steady_pure _
  · exact (steady_visitEach threshold now _).bind fun _ => (steady_update _).bind fun _ => Pass.steady_pure _

end DeadMembers

namespace IdleSlots

theorem steady_drop (name : String) : Pass.Steady calm (drop session name) := by
  refine (steady_act (Steady.inContext (steady_request _).guarded).settled).bind fun dropped => ?_
  cases dropped with
  | error failure => exact Pass.steady_pure _
  | ok value => exact (steady_act (steady_count _)).bind fun _ => Pass.steady_pure _

theorem steady_visitIdle (settings : SlotSettings) (now : Nat) (slot : Slot) (member : Int) :
    Pass.Steady calm (visitIdle settings session now slot member) := by
  refine (steady_act (steady_prompt (.notice _) trivial)).whenever ?_
  refine (steady_update _).bind fun _ => steady_clocks.bind fun clocks => ?_
  split
  · exact Pass.steady_pure _
  · refine (steady_drop _).bind fun dropped => ?_
    cases dropped with
    | true => exact (steady_update _).bind fun _ => Pass.steady_pure _
    | false => exact Pass.steady_pure _

theorem steady_visit (settings : SlotSettings) (topology : Topology) (now : Nat) (slot : Slot) :
    Pass.Steady calm (visit settings session topology now slot) := by
  unfold visit
  split
  · exact Pass.steady_pure _
  · split
    · exact Pass.steady_pure _
    · split
      · exact steady_visitIdle settings now slot _
      · refine (steady_drop _).bind fun dropped => ?_
        cases dropped <;> exact Pass.steady_pure _

theorem steady_visitEach (settings : SlotSettings) (topology : Topology) (now : Nat) (slots : List Slot) :
    Pass.Steady calm (visitEach settings session topology now slots) := by
  induction slots with
  | nil => exact Pass.steady_pure _
  | cons slot rest ih =>
    exact (steady_visit settings topology now slot).bind fun _ => ih.bind fun _ => Pass.steady_pure _

theorem steady_reap (settings : SlotSettings) (now : Nat) : Pass.Steady calm (reap host settings now) := by
  refine (steady_act Node.steady_survey.guarded).bind fun (session, topology) => ?_
  refine (steady_act (Node.steady_row topology)).bind fun row => ?_
  split
  · exact Pass.steady_pure _
  · have lists : Pass.Steady calm (inContext "list replication slots" (Pass.act (Action.guarded session.slots))) := by
      rw [Pass.inContext_act]
      exact steady_act (Steady.inContext (steady_request _).guarded)
    refine lists.bind fun slots => ?_
    exact (steady_visitEach settings topology now slots).bind fun _ => (steady_update _).bind fun _ => Pass.steady_pure _

end IdleSlots

open Procedure

namespace Procedure

variable {α β : Type} {ends : α → Prop} {procedure : Procedure α}

theorem Steady.bind {next : α → Procedure β} {closes : β → Prop} (steady : procedure.Steady calm ends)
    (onward : ∀ value, (calm → ends value) → (next value).Steady calm closes) : (procedure >>= next).Steady calm closes :=
  Program.Holds.bind (Program.Holds.mono steady (fun _ _ asked => asked) fun value _ ended => onward value ended)

theorem steady_prompt {asked : Prompt} {next : asked.Reply → Procedure α} (spares : (Request.prompt asked).SparesGroup)
    (onward : ∀ reply, (next reply).Steady calm ends) : (prompt asked >>= next).Steady calm ends :=
  ⟨spares, fun reply _ _ => onward reply⟩

theorem Steady.unlessStopped (steady : procedure.Steady calm ends) :
    (unlessStopped procedure).Steady calm fun ended => ∃ value, ended = some value ∧ ends value := by
  refine ⟨trivial, fun stop _ lawful => ?_⟩
  cases stop with
  | true => exact fun calm => nomatch lawful calm
  | false =>
    have yields : Yields (Law.when calm) (fun request _ => request.SparesGroup) fun _ => ¬calm := yields_when
    have onward := Action.Holds.interruptible yields steady
    refine Program.Holds.mono onward (fun _ _ asked => asked) fun ended _ held calm => ?_
    cases ended with
    | none => exact absurd calm held
    | some value => exact ⟨value, rfl, held calm⟩

theorem steady_await {wait : Wait} (spares : (Request.await wait).SparesGroup) : (await wait).Steady calm fun _ => True :=
  ⟨spares, fun _ _ _ _ => trivial⟩

end Procedure

theorem Monitor.steady_tick (settings : WatchSettings) (kind : Monitor) (clocks : Clocks) :
    (kind.tick host settings clocks).Steady calm fun ended => ended.1.Uncancelled := by
  have untimed : ∀ {α : Type} {action : Action α}, action.Steady calm →
      (clockless action clocks).Steady calm fun ended => ended.1.Uncancelled := by
    intro α action steady
    refine Program.Holds.bind (Program.Holds.mono steady.run (fun _ _ asked => asked) fun outcome _ ended => ?_)
    cases outcome with
    | ok value => exact fun _ => Outcome.uncancelled_ok ()
    | error failure => exact fun calm => by rintro _ ⟨⟩; exact ended calm
  have atPresent : ∀ {α : Type} {pass : Nat → Pass α}, (∀ now, Pass.Steady calm (pass now)) →
      (timed pass clocks).Steady calm fun ended => ended.1.Uncancelled := by
    intro α pass steady
    refine steady_prompt trivial fun now => ?_
    refine Program.Holds.bind (Program.Holds.mono (steady now clocks).run (fun _ _ asked => asked) fun ended _ held => ?_)
    obtain ⟨outcome, clocks⟩ := ended
    cases outcome with
    | ok value => exact fun _ => Outcome.uncancelled_ok ()
    | error failure => exact fun calm => by rintro _ ⟨⟩; exact held calm
  cases kind with
  | clusterState => exact untimed ClusterState.steady_evaluate
  | deadMembers => exact atPresent (DeadMembers.steady_reap _)
  | replicationSlots => exact atPresent (IdleSlots.steady_reap _)
  | readonlyMirror => exact untimed ReadonlyMirror.steady_sync
  | backupRetention => exact untimed Retention.steady_prune

/-- Another round comes. -/
def Round.Goes {σ : Type} (ended : Round σ) : Prop := ∃ state, ended = .again state

theorem Loop.steady_round {σ : Type} (interval : Nat) {tick : σ → Procedure (Outcome Unit × σ)}
    (ticks : ∀ kept, (tick kept).Steady calm fun ended => ended.1.Uncancelled) (state : Loop.State σ) :
    (Loop.round interval tick state).Steady calm Round.Goes := by
  have waits : (await (.sleepUntil state.deadline)).Steady calm fun _ => True := steady_await trivial
  refine waits.unlessStopped.bind fun waited due => ?_
  cases waited with
  | none => exact fun calm => nomatch due calm
  | some waited =>
    refine steady_prompt trivial fun noticed => ?_
    have announced : (do
        notice .tickBegun
        let ticked ← tick state.kept
        notice .tickEnded
        return ticked).Steady calm fun ended : Outcome Unit × σ => ended.1.Uncancelled :=
      steady_prompt trivial fun _ => (ticks state.kept).bind fun _ held => steady_prompt trivial fun _ => held
    refine announced.unlessStopped.bind fun ticked held => ?_
    rcases ticked with _ | ⟨failure | done, kept⟩
    · exact fun calm => nomatch held calm
    · change Steady calm Round.Goes (if failure.isCancelled then _ else _)
      split
      next cancelled =>
        intro calm
        obtain ⟨_, same, uncancelled⟩ := held calm
        cases same
        exact absurd cancelled (by simp [uncancelled failure rfl])
      next => exact steady_prompt trivial fun _ _ => ⟨_, rfl⟩
    · exact steady_prompt trivial fun _ _ => ⟨_, rfl⟩

theorem BackupSchedule.steady_rest (wait : Duration) (state : BackupSchedule.State) :
    (BackupSchedule.rest wait state).Steady calm fun rested => ∃ state, rested = some state := by
  rw [BackupSchedule.rest, alarm_bind]
  refine steady_prompt trivial fun now => ?_
  split
  next =>
    have waits : ∀ deadline, (await (.frequencyNews state.seen deadline)).Steady calm fun _ => True :=
      fun _ => steady_await trivial
    refine (waits _).unlessStopped.bind fun news held calm => ?_
    obtain ⟨heard, rfl, _⟩ := held calm
    exact ⟨_, rfl⟩
  next =>
    have waits : ∀ deadline, (await (.sleepUntil deadline)).Steady calm fun _ => True := fun _ => steady_await trivial
    refine (waits _).unlessStopped.bind fun slept held calm => ?_
    obtain ⟨heard, rfl, _⟩ := held calm
    exact ⟨_, rfl⟩

theorem BackupSchedule.steady_round (policy : RetryPolicy) (state : BackupSchedule.State) :
    (BackupSchedule.round host policy state).Steady calm Round.Goes := by
  have evaluates : Action.Steady calm (evaluate host policy) := steady_evaluate policy
  have settles := evaluates.guarded.settles.run
  refine Program.Holds.bind (Program.Holds.mono settles (fun _ _ asked => asked) fun evaluated _ ended => ?_)
  rcases evaluated with failure | evaluated
  · exact fun calm => absurd calm ended
  · refine (steady_rest _ state).bind fun rested goes => ?_
    cases rested with
    | none => exact fun calm => nomatch goes calm
    | some state => exact fun _ => ⟨state, rfl⟩

theorem Duty.steady_round (orders : Orders) (duty : Duty) : (duty.round orders).Steady calm Round.Goes := by
  have mapped : ∀ {σ : Type} (wrap : σ → Duty) (ended : Round σ), (calm → ended.Goes) → calm → (ended.map wrap).Goes := by
    intro σ wrap ended goes calm
    obtain ⟨state, rfl⟩ := goes calm
    exact ⟨wrap state, rfl⟩
  cases duty with
  | monitor kind state =>
    exact (Loop.steady_round _ (Monitor.steady_tick orders.watches kind) state).bind fun ended goes => mapped _ ended goes
  | schedule retry state => exact (BackupSchedule.steady_round retry state).bind fun ended goes => mapped _ ended goes

end QuorumWarden
