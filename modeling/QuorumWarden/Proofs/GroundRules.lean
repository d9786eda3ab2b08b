import QuorumWarden.Proofs.NodeGround

/-! Rules for what a node does on its ground. Each rule tells which calls are made, what is true
of the ground at every one of them, and which admitted event is to blame for a failure. -/

namespace QuorumWarden

/-- An event that could not occur in a plain wait does not occur in one that may give way. -/
def Evenhanded (admits : Program.Event Request.Reply → Prop) : Prop :=
  ∀ wait reply, admits ⟨.awaitOrStop wait, some reply⟩ → admits ⟨.await wait, reply⟩

theorem evenhanded_all : Evenhanded fun _ => True := fun _ _ _ => trivial

def MayStop (admits : Program.Event Request.Reply → Prop) : Prop := ∃ event, admits event ∧ event.stops

def MayFail (admits : Program.Event Request.Reply → Prop) (calls : Call → Prop) : Prop :=
  ∃ made failure, calls made ∧ admits ⟨.await (.call made), .error failure⟩

/-- Something that is no plain success may occur. -/
def Troubled (admits : Program.Event Request.Reply → Prop) : Prop :=
  ∃ event, admits event ∧ (event.stops ∨ event.failure? ≠ none)

def Smooth (event : Program.Event Request.Reply) : Prop := ¬event.stops ∧ event.failure? = none

instance : DecidablePred Smooth := fun _ => instDecidableAnd

theorem smooth_even : Evenhanded Smooth := by
  intro wait reply ⟨_, succeeded⟩
  refine ⟨Bool.false_ne_true, ?_⟩
  cases wait with
  | call made => exact succeeded
  | _ => rfl

theorem smooth_untroubled : ¬Troubled Smooth := by
  rintro ⟨event, ⟨unstopped, succeeded⟩, stops | failed⟩
  · exact unstopped stops
  · exact failed succeeded

/-- Nothing is asked but such calls, looks at the stop and counts, all on such ground. -/
def Asking (calls : Call → Prop) (grounded : Ground → Prop) (request : Request) (ground : Ground) : Prop :=
  grounded ground ∧
    match request with
    | .prompt asked => asked = .stopRequested ∨ ∃ counter, asked = .count counter
    | .await (.call made) => calls made
    | .awaitOrStop (.call made) => calls made
    | _ => False

theorem Asking.imp {calls others : Call → Prop} {grounded firm : Ground → Prop} {request : Request} {ground : Ground}
    (asking : Asking calls grounded request ground) (more : ∀ made, calls made → others made)
    (weaker : grounded ground → firm ground) : Asking others firm request ground := by
  refine ⟨weaker asking.1, ?_⟩
  have asked := asking.2
  cases request with
  | prompt prompt => exact asked
  | await wait | awaitOrStop wait =>
    cases wait with
    | call made => exact more made asked
    | _ => exact asked

def Server.Keeps (server : Server) (calls : Call → Prop) (grounded : Ground → Prop) : Prop :=
  ∀ made before reply after, calls made → grounded before → server.call made before reply after → grounded after

theorem Server.call_keeps {server : Server} {made : Call} {before after : Ground} {reply : made.Reply}
    (other : ∀ host database enabled, made ≠ .setReadonly host database enabled)
    (answered : server.call made before reply after) : after = before := by
  cases made with
  | setReadonly host database enabled => exact absurd rfl (other host database enabled)
  | databases host => exact answered.1
  | readonly host database => exact answered.1
  | _ => exact answered

theorem Server.keeps_same {server : Server} {calls : Call → Prop} (ground : Ground)
    (other : ∀ made, calls made → ∀ host database enabled, made ≠ .setReadonly host database enabled) :
    server.Keeps calls (· = ground) :=
  fun made _ _ _ asked same answered => (Server.call_keeps (other made asked) answered).trans same

variable {server : Server} {admits : Program.Event Request.Reply → Prop} {α : Type}
  {asks : Request → Ground → Prop} {good : α → Ground → Prop} {bad : Failure → Ground → Prop} {ground : Ground}

namespace Action

theorem holds_read {good : Option String → Ground → Prop} {marker : Marker}
    (asked : asks (.prompt (.readMarker marker)) ground) (found : good (ground.markers.get marker) ground)
    (failed : ∀ failure, admits ⟨.prompt (.readMarker marker), .error failure⟩ → bad failure ground) :
    Holds (server.law.restrict admits) asks good bad (Fence.read marker) ground := by
  refine ⟨asked, fun reply after ⟨⟨same, told⟩, admitted⟩ => ?_⟩
  subst same
  cases reply with
  | ok text => exact told text rfl ▸ found
  | error failure => exact failed failure admitted

theorem holds_write {good : Unit → Ground → Prop} {marker : Marker} {text : String}
    (asked : asks (.prompt (.writeMarker marker text)) ground)
    (written : good () (ground.setMarker marker (some text)))
    (failed : ∀ failure after, admits ⟨.prompt (.writeMarker marker text), .error failure⟩ →
      after = ground ∨ after = ground.setMarker marker (some text) → bad failure after) :
    Holds (server.law.restrict admits) asks good bad (Fence.write marker text) ground := by
  refine ⟨asked, fun reply after ⟨effect, admitted⟩ => ?_⟩
  cases reply with
  | ok value =>
    rcases effect with ⟨_, failed⟩ | rfl
    · exact absurd rfl failed
    · exact written
  | error failure => exact failed failure after admitted (effect.imp_left And.left)

theorem holds_remove {good : Unit → Ground → Prop} {marker : Marker}
    (asked : asks (.prompt (.removeMarker marker)) ground) (removed : good () (ground.setMarker marker none))
    (failed : ∀ failure after, admits ⟨.prompt (.removeMarker marker), .error failure⟩ →
      after = ground ∨ after = ground.setMarker marker none → bad failure after) :
    Holds (server.law.restrict admits) asks good bad (Fence.remove marker) ground := by
  refine ⟨asked, fun reply after ⟨effect, admitted⟩ => ?_⟩
  cases reply with
  | ok value =>
    rcases effect with ⟨_, failed⟩ | rfl
    · exact absurd rfl failed
    · exact removed
  | error failure => exact failed failure after admitted (effect.imp_left And.left)

theorem holds_holds {good : Bool → Ground → Prop} {marker : Marker}
    (asked : asks (.prompt (.readMarker marker)) ground) (found : good (ground.markers.get marker).isSome ground)
    (failed : ∀ failure, admits ⟨.prompt (.readMarker marker), .error failure⟩ → bad failure ground) :
    Holds (server.law.restrict admits) asks good bad (Fence.holds marker) ground :=
  Holds.bind (holds_read asked (Holds.pure found) failed)

theorem holds_count {good : Unit → Ground → Prop} {counter : Counter}
    (asked : asks (.prompt (.count counter)) ground) (counted : good () ground) :
    Holds (server.law.restrict admits) asks good bad (liftM (Procedure.count counter) : Action Unit) ground := by
  refine Holds.lift ⟨asked, fun reply after ⟨same, _⟩ => ?_⟩
  exact (same : after = ground) ▸ counted

/-- Writes are allowed exactly on unlocked ground. -/
theorem holds_state {good : FenceState → Ground → Prop}
    (asked : ∀ marker, asks (.prompt (.readMarker marker)) ground)
    (found : ∀ state, (state.allowsWrites = true ↔ ground.Unlocked) → good state ground)
    (failed : ∀ marker failure, admits ⟨.prompt (.readMarker marker), .error failure⟩ → bad failure ground) :
    Holds (server.law.restrict admits) asks good bad Fence.state ground := by
  refine Holds.bind (holds_read (asked _) ?_ (failed _))
  simp only [Markers.get]
  cases zombie : ground.markers.zombieLock with
  | some text => exact Holds.pure (found _ (by simp [FenceState.allowsWrites, Ground.Unlocked, zombie]))
  | none =>
    refine Holds.bind (holds_holds (asked _) (Holds.pure (found _ ?_)) (failed _))
    cases readonly : ground.markers.readonlyLock <;>
      simp [FenceState.allowsWrites, Ground.Unlocked, Markers.get, zombie, readonly]

theorem asking_yields {calls : Call → Prop} {grounded : Ground → Prop} (even : Evenhanded admits)
    (keeps : server.Keeps calls grounded) :
    Yields (server.law.restrict admits) (Asking calls grounded) fun after => grounded after ∧ MayStop admits := by
  constructor
  · intro wait ground asked
    cases wait <;> exact asked
  · intro wait before reply after ⟨answered, admitted⟩
    exact ⟨answered, even wait reply admitted⟩
  · intro wait before after ⟨stands, asked⟩ ⟨left, admitted⟩
    refine ⟨?_, _, admitted, rfl⟩
    cases wait with
    | call made =>
      rcases left with same | ⟨reply, answered⟩
      · exact (same : after = before) ▸ stands
      · exact keeps made before reply after asked stands answered
    | _ => exact asked.elim

theorem holds_guarded {calls : Call → Prop} {grounded : Ground → Prop} {action : Action α} (even : Evenhanded admits)
    (keeps : server.Keeps calls grounded) (stands : grounded ground)
    (stopped : ∀ after, grounded after → MayStop admits → bad .cancelled after)
    (holds : Holds (server.law.restrict admits) (Asking calls grounded) good bad action ground) :
    Holds (server.law.restrict admits) (Asking calls grounded) good bad (guarded action) ground := by
  have yields := asking_yields even keeps
  refine Holds.guarded ⟨yields.asked, yields.heard, ?_⟩ ⟨stands, Or.inl rfl⟩ ?_ holds
  · intro wait before after asked left
    obtain ⟨stands, may⟩ := yields.left wait before after asked left
    exact stopped after stands may
  · intro stop after effect
    obtain ⟨same, admitted⟩ := effect
    refine ⟨same, ?_⟩
    intro same
    subst same
    exact stopped ground stands ⟨_, admitted, rfl⟩

end Action

end QuorumWarden
