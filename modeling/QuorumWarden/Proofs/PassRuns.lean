import QuorumWarden.Proofs.FenceTranscripts
import QuorumWarden.Proofs.RecordedVerdict
import QuorumWarden.Watch.Clocks

/-! Runs of a pass, which starts from its clocks and leaves others. Unless a stop ends the pass, every call that
it settles is answered, and its own outcome tells that none did. -/

namespace QuorumWarden

/-- Not a failure that came of a stop. -/
def Outcome.Uncancelled {α : Type} (outcome : Outcome α) : Prop :=
  ∀ failure, outcome = .error failure → failure.isCancelled = false

theorem Outcome.uncancelled_ok {α : Type} (value : α) : Outcome.Uncancelled (.ok value) := nofun

theorem Outcome.Uncancelled.error {α β : Type} {failure : Failure}
    (uncancelled : Outcome.Uncancelled (α := α) (.error failure)) :
    Outcome.Uncancelled (α := β) (.error failure) := by
  rintro _ ⟨⟩
  exact uncancelled failure rfl

theorem Outcome.Uncancelled.of_within {α : Type} {outcome : Outcome α} {context : String}
    (uncancelled : Outcome.Uncancelled (outcome.mapError (Failure.within context))) : outcome.Uncancelled := by
  rintro failure rfl
  exact uncancelled (failure.within context) rfl

namespace Action

variable {α : Type} {action : Action α} {outcome : Outcome α} {trace : List (Program.Event Request.Reply)}

theorem ran_settled {result : Outcome (Outcome α)} (ran : Ran (settled action) trace result)
    (uncancelled : result.Uncancelled) :
    ∃ outcome : Outcome α, result = .ok outcome ∧ outcome.Uncancelled ∧ Ran action trace outcome := by
  obtain ⟨outcome, _, first, second, rfl, inside, onward⟩ := Program.Runs.of_bind ran
  cases outcome with
  | ok value =>
    obtain ⟨rfl, ended, _⟩ := Program.Steps.of_done onward
    rw [List.append_nil]
    cases ended
    exact ⟨.ok value, rfl, Outcome.uncancelled_ok value, inside⟩
  | error failure =>
    obtain ⟨rfl, ended, _⟩ := Program.Steps.of_done onward
    rw [List.append_nil]
    cases cancelled : failure.isCancelled with
    | true =>
      rw [cancelled] at ended
      cases ended
      exact absurd (uncancelled failure rfl) (by simp [cancelled])
    | false =>
      rw [cancelled] at ended
      cases ended
      refine ⟨.error failure, rfl, ?_, inside⟩
      rintro _ ⟨⟩
      exact cancelled

theorem ran_liftExcept {given : Outcome α} (ran : Ran (liftExcept given) trace outcome) : trace = [] ∧ outcome = given := by
  cases given with
  | error failure => exact ran_throw ran
  | ok value => exact ran_pure ran

theorem transcript_unstopped (ran : Ran (guarded action) trace outcome) (uncancelled : outcome.Uncancelled) :
    ∃ inner, Ran action inner outcome ∧
      ∀ deeds, Transcript inner deeds → Transcript trace (.prompt .stopRequested false :: deeds) := by
  rcases ran_guarded ran with ⟨rfl, _⟩ | ⟨inner, rfl, inside⟩
  · cases uncancelled .cancelled rfl
  · exact ⟨inner, inside, fun deeds told => .cons rfl told.yielding⟩

theorem transcript_answered {made : Call} {reply : made.Reply} (ran : Ran (request made) trace reply) :
    Transcript trace [.call made reply] := by
  rw [ran_request ran]
  exact .cons rfl .nil

theorem transcript_dialled {hostname : String} {result : Outcome Session}
    (ran : Ran (Session.connect hostname) trace result) :
    ∃ reply : Outcome Unit, result = reply.map (fun _ => ⟨hostname⟩) ∧
      Transcript trace [.call (.connect hostname) reply] := by
  rcases ran_bind ran with ⟨failure, rfl, asks⟩ | ⟨_, _, _, rfl, asks, ended⟩
  · exact ⟨.error failure, rfl, transcript_answered asks⟩
  · obtain ⟨rfl, rfl⟩ := ran_pure ended
    exact ⟨.ok (), rfl, (transcript_answered asks).append .nil⟩

end Action

namespace Pass

variable {α β : Type} {pass : Pass α} {clocks after : Clocks} {trace : List (Program.Event Request.Reply)}

abbrev Ran (pass : Pass α) (clocks : Clocks) (trace : List (Program.Event Request.Reply)) (outcome : Outcome α)
    (after : Clocks) : Prop := Program.Runs Law.free (pass.runFrom clocks) () trace (outcome, after) ()

theorem ran_pure {value : α} {outcome : Outcome α} (ran : Ran (pure value) clocks trace outcome after) :
    trace = [] ∧ outcome = .ok value ∧ after = clocks := by
  obtain ⟨rfl, ended, _⟩ := Program.Steps.of_done ran
  cases ended
  exact ⟨rfl, rfl, rfl⟩

theorem ran_bind {next : α → Pass β} {outcome : Outcome β} (ran : Ran (pass >>= next) clocks trace outcome after) :
    (∃ failure, outcome = .error failure ∧ Ran pass clocks trace (.error failure) after) ∨
      ∃ value between first second, trace = first ++ second ∧ Ran pass clocks first (.ok value) between ∧
        Ran (next value) between second outcome after := by
  obtain ⟨⟨middle, between⟩, _, first, second, rfl, inside, onward⟩ := Program.Runs.of_bind ran
  cases middle with
  | error failure =>
    obtain ⟨rfl, ended, _⟩ := Program.Steps.of_done onward
    cases ended
    rw [List.append_nil]
    exact Or.inl ⟨failure, rfl, inside⟩
  | ok value => exact Or.inr ⟨value, between, first, second, rfl, inside, onward⟩

theorem ran_act {action : Action α} {outcome : Outcome α} (ran : Ran (act action) clocks trace outcome after) :
    Action.Ran action trace outcome ∧ after = clocks := by
  obtain ⟨result, _, first, second, rfl, inside, onward⟩ := Program.Runs.of_bind ran
  obtain ⟨rfl, ended, _⟩ := Program.Steps.of_done onward
  cases ended
  rw [List.append_nil]
  exact ⟨inside, rfl⟩

variable {next : α → Pass β} {outcome : Outcome β}

theorem ran_act_bind {action : Action α} (ran : Ran (act action >>= next) clocks trace outcome after) :
    (∃ failure, outcome = .error failure ∧ after = clocks ∧ Action.Ran action trace (.error failure)) ∨
      ∃ value first second, trace = first ++ second ∧ Action.Ran action first (.ok value) ∧
        Ran (next value) clocks second outcome after := by
  rcases ran_bind ran with ⟨failure, failed, inside⟩ | ⟨value, _, first, second, split, inside, onward⟩
  · obtain ⟨acted, same⟩ := ran_act inside
    exact Or.inl ⟨failure, failed, same, acted⟩
  · obtain ⟨acted, rfl⟩ := ran_act inside
    exact Or.inr ⟨value, first, second, split, acted, onward⟩

/-- The context of an action is the same whether it is named before or after the action becomes a pass. -/
theorem inContext_act (context : String) (action : Action α) :
    inContext context (act action) = act (inContext context action) := by
  funext clocks
  change ((action.run >>= fun result => pure (result, clocks)) >>= fun (result, later) =>
      pure (Except.mapError (Failure.within context) result, later)) =
    (action.run >>= fun result => pure (result.mapError (Failure.within context))) >>= fun result => pure (result, clocks)
  rw [bind_assoc, bind_assoc]
  rfl

/-- A first part that always returns, unless it is cancelled, is followed by the rest. -/
theorem ran_bind_returning {told : List (Program.Event Request.Reply) → α → Clocks → Prop}
    (ran : Ran (pass >>= next) clocks trace outcome after) (uncancelled : outcome.Uncancelled)
    (returning : ∀ {first : List (Program.Event Request.Reply)} {result : Outcome α} {between : Clocks},
      Ran pass clocks first result between → result.Uncancelled → ∃ value, result = .ok value ∧ told first value between) :
    ∃ value between first second, trace = first ++ second ∧ told first value between ∧
      Ran (next value) between second outcome after := by
  rcases ran_bind ran with ⟨failure, rfl, inside⟩ | ⟨value, between, first, second, rfl, inside, onward⟩
  · obtain ⟨_, same, _⟩ := returning inside uncancelled.error
    cases same
  · obtain ⟨_, same, tells⟩ := returning inside (Outcome.uncancelled_ok value)
    cases same
    exact ⟨value, between, first, second, rfl, tells, onward⟩

/-- Whatever a settled action comes to, the pass goes on, unless that cancels it. -/
theorem ran_settled_bind {action : Action α} {next : Outcome α → Pass β}
    (ran : Ran (act (Action.settled action) >>= next) clocks trace outcome after) (uncancelled : outcome.Uncancelled) :
    ∃ (result : Outcome α) (first second : List (Program.Event Request.Reply)), trace = first ++ second ∧
      result.Uncancelled ∧ Action.Ran action first result ∧ Ran (next result) clocks second outcome after := by
  rcases ran_act_bind ran with ⟨failure, rfl, _, settles⟩ | ⟨result, first, second, rfl, settles, onward⟩
  · obtain ⟨_, same, _⟩ := Action.ran_settled settles uncancelled.error
    cases same
  · obtain ⟨_, same, uncancelled, inside⟩ := Action.ran_settled settles (Outcome.uncancelled_ok _)
    cases same
    exact ⟨result, first, second, rfl, uncancelled, inside, onward⟩

theorem ran_liftExcept_bind {given : Outcome α} (ran : Ran (act (liftExcept given) >>= next) clocks trace outcome after) :
    (∃ failure, given = .error failure ∧ trace = [] ∧ outcome = .error failure ∧ after = clocks) ∨
      ∃ value, given = .ok value ∧ Ran (next value) clocks trace outcome after := by
  rcases ran_act_bind ran with ⟨failure, rfl, rfl, lifts⟩ | ⟨value, first, second, rfl, lifts, onward⟩
  · obtain ⟨rfl, same⟩ := Action.ran_liftExcept lifts
    exact Or.inl ⟨failure, same.symm, rfl, rfl, rfl⟩
  · obtain ⟨rfl, same⟩ := Action.ran_liftExcept lifts
    exact Or.inr ⟨value, same.symm, onward⟩

theorem ran_prompt_bind {asked : Prompt} {next : asked.Reply → Pass β}
    (ran : Ran (act (ExceptT.lift (Procedure.prompt asked)) >>= next) clocks trace outcome after) :
    ∃ reply second, trace = ⟨.prompt asked, reply⟩ :: second ∧ Ran (next reply) clocks second outcome after := by
  rcases ran_act_bind ran with ⟨_, _, _, asks⟩ | ⟨reply, first, second, rfl, asks, onward⟩
  · obtain ⟨_, _, same⟩ := Action.ran_answer asks
    cases same
  · obtain ⟨_, rfl, same⟩ := Action.ran_answer asks
    cases same
    exact ⟨reply, second, rfl, onward⟩

theorem ran_update_bind {change : Clocks → Clocks} {next : Unit → Pass β}
    (ran : Ran (update change >>= next) clocks trace outcome after) : Ran (next ()) (change clocks) trace outcome after := ran

theorem ran_clocks_bind {next : Clocks → Pass β} (ran : Ran (Pass.clocks >>= next) clocks trace outcome after) :
    Ran (next clocks) clocks trace outcome after := ran

end Pass

namespace Node

open QuorumWarden.Action

variable {host : String} {trace : List (Program.Event Request.Reply)}

inductive Surveyed (host : String) : List Deed → Outcome (Session × Topology) → Prop where
  | listed (members : List Member) :
    Surveyed host [.call (.connect host) (.ok ()), .call (.listMembers host) (.ok members)] (.ok (⟨host⟩, ⟨members⟩))
  | unconnected (cause failure : Failure) : Surveyed host [.call (.connect host) (.error cause)] (.error failure)
  | unlisted (cause failure : Failure) :
    Surveyed host [.call (.connect host) (.ok ()), .call (.listMembers host) (.error cause)] (.error failure)

theorem ran_survey {outcome : Outcome (Session × Topology)} (ran : Ran (survey host) trace outcome) :
    ∃ deeds, Transcript trace deeds ∧ Surveyed host deeds outcome := by
  rcases ran_bind ran with ⟨failure, rfl, connects⟩ | ⟨session, first, second, rfl, connects, onward⟩
  · obtain ⟨inner, same, dials⟩ := ran_inContext connects
    obtain ⟨reply, rfl, dialled⟩ := transcript_dialled dials
    cases reply with
    | ok => cases same
    | error cause => exact ⟨_, dialled, .unconnected cause failure⟩
  · obtain ⟨rfl, dialled⟩ := transcript_connect connects
    rcases ran_bind onward with ⟨failure, rfl, fetches⟩ | ⟨topology, _, _, rfl, fetches, ended⟩
    · obtain ⟨inner, same, lists⟩ := ran_inContext fetches
      cases inner with
      | ok topology => cases same
      | error cause =>
        rcases ran_bind lists with ⟨_, same, asks⟩ | ⟨_, _, _, _, _, ended⟩
        · cases same
          exact ⟨_, dialled.append (transcript_answered asks), .unlisted cause failure⟩
        · cases (ran_pure ended).2
    · obtain ⟨members, rfl, lists⟩ := returned_last (returned_inContext fetches)
      obtain ⟨rfl, rfl⟩ := ran_pure ended
      exact ⟨_, dialled.append ((transcript_request lists).append .nil), .listed members⟩

end Node

/-- What a pass does until it has the catalog. -/
def lookDeeds (host : String) (members : List Member) : List Deed :=
  [.prompt .stopRequested false, .call (.connect host) (.ok ()), .call (.listMembers host) (.ok members)]

theorem Pass.ran_survey_bind {α : Type} {host : String} {clocks after : Clocks} {trace : List (Program.Event Request.Reply)}
    {outcome : Outcome α} {next : Session × Topology → Pass α}
    (ran : Ran (act (Action.guarded (Node.survey host)) >>= next) clocks trace outcome after)
    (uncancelled : outcome.Uncancelled) :
    (∃ deeds failure, Node.Surveyed host deeds (.error failure) ∧ Transcript trace (.prompt .stopRequested false :: deeds) ∧
        outcome = .error failure ∧ after = clocks) ∨
      ∃ members first second, trace = first ++ second ∧ Transcript first (lookDeeds host members) ∧
        Ran (next (⟨host⟩, ⟨members⟩)) clocks second outcome after := by
  rcases ran_act_bind ran with ⟨failure, rfl, rfl, surveys⟩ | ⟨_, first, second, rfl, surveys, onward⟩
  · obtain ⟨_, inside, told⟩ := Action.transcript_unstopped surveys uncancelled.error
    obtain ⟨deeds, read, found⟩ := Node.ran_survey inside
    exact Or.inl ⟨deeds, failure, found, told _ read, rfl, rfl⟩
  · obtain ⟨_, inside, told⟩ := Action.transcript_guarded surveys
    obtain ⟨deeds, read, found⟩ := Node.ran_survey inside
    cases found with
    | listed members => exact Or.inr ⟨members, first, second, rfl, told _ read, onward⟩

/-- A pass as it was seen: its instant, what it did and what it came to. -/
structure Sweep (α : Type) where
  now : Nat
  trace : List (Program.Event Request.Reply)
  outcome : Outcome α

namespace Sweep

variable {α : Type}

def deeds (sweep : Sweep α) : List Deed := sweep.trace.filterMap Program.Event.deed?

def members (sweep : Sweep α) : List Member := (surveyed sweep.deeds).getD []

end Sweep

/-- Passes one after another. Each finds the clocks that the one before it left. -/
inductive Passes {α : Type} (step : Clocks → Sweep α → Clocks → Prop) : List (Sweep α) → Clocks → Prop where
  | start : Passes step [] {}
  | next {earlier clocks sweep after} (passes : Passes step earlier clocks) (taken : step clocks sweep after) :
    Passes step (earlier ++ [sweep]) after

end QuorumWarden
