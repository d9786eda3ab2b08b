import QuorumWarden.Proofs.ActionRules

/-! What an action went through if it returned. A sequence returned from each of its parts, and
nothing that was guarded saw a stop. -/

namespace QuorumWarden.Action

variable {σ α β : Type} {law : Law Request Request.Reply σ} {surroundings : Surroundings σ} {before after : σ}

def Returns (law : Law Request Request.Reply σ) (action : Action α) (before : σ) (value : α) (after : σ) : Prop :=
  ∃ trace, Program.Runs law action.run before trace (.ok value) after

theorem returns_pure_iff {given value : α} :
    Returns law (pure given) before value after ↔ value = given ∧ after = before := by
  constructor
  · rintro ⟨trace, ran⟩
    obtain ⟨_, ended, same⟩ := Program.Steps.of_done ran
    cases ended
    exact ⟨rfl, same⟩
  · rintro ⟨rfl, rfl⟩
    exact ⟨[], .refl⟩

theorem returns_bind_iff {action : Action β} {next : β → Action α} {value : α} :
    Returns law (action >>= next) before value after ↔
      ∃ middle between, Returns law action before middle between ∧ Returns law (next middle) between value after := by
  constructor
  · rintro ⟨trace, ran⟩
    rcases runs_of_bind ran with ⟨_, failed, _⟩ | ⟨middle, between, first, second, _, inside, onward⟩
    · cases failed
    · exact ⟨middle, between, ⟨first, inside⟩, second, onward⟩
  · rintro ⟨middle, between, ⟨first, inside⟩, second, onward⟩
    exact ⟨first ++ second, runs_bind inside onward⟩

theorem returns_lift_iff {procedure : Procedure α} {value : α} :
    Returns law (liftM procedure : Action α) before value after ↔
      ∃ trace, Program.Runs law procedure before trace value after := by
  constructor
  · rintro ⟨trace, ran⟩
    obtain ⟨middle, between, first, second, rfl, inside, onward⟩ := Program.Runs.of_bind ran
    obtain ⟨_, ended, rfl⟩ := Program.Steps.of_done onward
    cases ended
    exact ⟨first, inside⟩
  · rintro ⟨trace, ran⟩
    exact ⟨trace ++ [], Program.Runs.bind ran .refl⟩

theorem returns_inContext_iff {context : String} {action : Action α} {value : α} :
    Returns law (inContext context action) before value after ↔ Returns law action before value after := by
  constructor
  · rintro ⟨trace, ran⟩
    obtain ⟨outcome, between, first, second, rfl, inside, onward⟩ := Program.Runs.of_bind ran
    obtain ⟨_, ended, rfl⟩ := Program.Steps.of_done onward
    cases outcome with
    | error failure => cases ended
    | ok found =>
      cases ended
      exact ⟨first, inside⟩
  · rintro ⟨trace, ran⟩
    exact ⟨trace ++ [], Program.Runs.bind ran .refl⟩

/-- An action of one request, with its answer as the outcome. -/
theorem returns_answer_iff {request : Request} {answer : request.Reply → Outcome α} {value : α} :
    Returns law (ExceptT.mk (Program.ask request fun reply => .done (answer reply))) before value after ↔
      ∃ reply, answer reply = .ok value ∧ law request before reply after := by
  constructor
  · rintro ⟨trace, ran⟩
    cases ran with
    | ask answered more =>
      obtain ⟨_, ended, rfl⟩ := Program.Steps.of_done more
      exact ⟨_, (Program.done.inj ended).symm, answered⟩
  · rintro ⟨reply, same, answered⟩
    have ended : Program.Runs law (.done (answer reply)) after [] (.ok value) after := same ▸ .refl
    exact ⟨_, .ask answered ended⟩

theorem runs_of_interruptible {procedure : Procedure α} {value : α} {trace : List (Program.Event Request.Reply)}
    (ran : Program.Runs surroundings.law procedure.interruptible before trace (some value) after) :
    ∃ trace, Program.Runs surroundings.law procedure before trace value after := by
  induction procedure generalizing before trace with
  | done result =>
    obtain ⟨_, ended, rfl⟩ := Program.Steps.of_done ran
    cases ended
    exact ⟨[], .refl⟩
  | ask request next ih =>
    cases request with
    | prompt asked =>
      cases ran with
      | ask answered more =>
        obtain ⟨trace, onward⟩ := ih _ more
        exact ⟨_, .ask answered onward⟩
    | await wait | awaitOrStop wait =>
      rw [Procedure.interruptible] at ran
      cases ran with
      | @ask _ _ _ reply between _ _ _ answered more =>
        cases reply with
        | none =>
          obtain ⟨_, ended, _⟩ := Program.Steps.of_done more
          cases ended
        | some reply =>
          obtain ⟨trace, onward⟩ := ih _ more
          exact ⟨_, .ask (answered : surroundings.law _ before _ between) onward⟩

theorem Returns.of_guarded {action : Action α} {value : α}
    (returns : Returns surroundings.law (guarded action) before value after) :
    ∃ between, surroundings.prompt .stopRequested before false between ∧
      Returns surroundings.law action between value after := by
  obtain ⟨trace, ran⟩ := returns
  obtain ⟨outcome, between, first, second, rfl, inside, onward⟩ := Program.Runs.of_bind ran
  cases outcome with
  | none =>
    obtain ⟨_, ended, _⟩ := Program.Steps.of_done onward
    cases ended
  | some outcome =>
    obtain ⟨_, ended, rfl⟩ := Program.Steps.of_done onward
    cases ended
    cases inside with
    | @ask _ _ _ stop between _ _ _ looked more =>
      cases stop with
      | true =>
        obtain ⟨_, ended, _⟩ := Program.Steps.of_done more
        cases ended
      | false => exact ⟨between, looked, runs_of_interruptible more⟩

/-- A settled call was answered, whatever the answer. -/
theorem Returns.of_settled_call {made : Call} {result : made.Reply}
    (returns : Returns surroundings.law (settled (guarded (request made))) before result after) :
    ∃ between, surroundings.prompt .stopRequested before false between ∧ surroundings.call made between result after := by
  obtain ⟨trace, ran⟩ := returns
  obtain ⟨rfl, _⟩ := settled_call ran
  rw [settled_call_run] at ran
  cases ran with
  | ask looked more =>
    cases more with
    | ask answered more =>
      obtain ⟨_, rfl⟩ := more.of_nil
      exact ⟨_, looked, answered⟩

end QuorumWarden.Action
