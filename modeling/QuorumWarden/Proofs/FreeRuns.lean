import QuorumWarden.Proofs.RecordedRuns

/-! Runs among surroundings that may answer anything. Whatever such a run is shown to have done, the
same program does among any surroundings. -/

namespace QuorumWarden

def Law.free {Request : Type} {Reply : Request → Type} : Law Request Reply Unit := fun _ _ _ _ => True

theorem Program.Steps.freed {Request : Type} {Reply : Request → Type} {σ α : Type} {law : Law Request Reply σ}
    {program rest : Program Request Reply α} {before after : σ} {trace : List (Event Reply)}
    (steps : Steps law program before trace rest after) : Steps Law.free program () trace rest () := by
  induction steps with
  | refl => exact .refl
  | ask _ _ ih => exact .ask trivial ih

theorem Program.steps_free_cons {Request : Type} {Reply : Request → Type} {α : Type} {request : Request}
    {next : Reply request → Program Request Reply α} {reply : Reply request} {trace : List (Event Reply)}
    {rest : Program Request Reply α} :
    Steps Law.free (.ask request next) () (⟨request, reply⟩ :: trace) rest () ↔
      Steps Law.free (next reply) () trace rest () := by
  constructor
  · rintro (_ | ⟨-, more⟩)
    exact more
  · exact fun more => .ask trivial more

theorem Program.runs_ask_iff {Request : Type} {Reply : Request → Type} {α : Type} {request : Request}
    {next : Reply request → Program Request Reply α} {trace : List (Event Reply)} {value : α} :
    Runs Law.free (.ask request next) () trace value () ↔
      ∃ reply rest, trace = ⟨request, reply⟩ :: rest ∧ Runs Law.free (next reply) () rest value () := by
  constructor
  · rintro (_ | ⟨_, more⟩)
    exact ⟨_, _, rfl, more⟩
  · rintro ⟨reply, rest, rfl, more⟩
    exact steps_free_cons.mpr more

namespace Program.Event

/-- The deed that an event amounts to. Exchanges side by side are many, and a wait that was given
up is none. -/
def deed? : Event Request.Reply → Option Deed
  | ⟨.prompt asked, reply⟩ => some (.prompt asked reply)
  | ⟨.await (.call made), reply⟩ => some (.call made reply)
  | ⟨.awaitOrStop (.call made), some reply⟩ => some (.call made reply)
  | _ => none

/-- The same event where the wait might have given way to a stop. -/
def yielding : Event Request.Reply → Event Request.Reply
  | ⟨.await wait, reply⟩ => ⟨.awaitOrStop wait, some reply⟩
  | event => event

theorem deed?_yielding (event : Event Request.Reply) : event.yielding.deed? = event.deed? := by
  obtain ⟨request, reply⟩ := event
  cases request with
  | prompt asked => rfl
  | await wait => cases wait <;> rfl
  | awaitOrStop wait => rfl

end Program.Event

/-- The trace consists of these deeds and nothing else. -/
def Transcript (trace : List (Program.Event Request.Reply)) (deeds : List Deed) : Prop :=
  trace.map Program.Event.deed? = deeds.map some

namespace Transcript

variable {first second trace : List (Program.Event Request.Reply)} {ahead behind deeds : List Deed}

theorem nil : Transcript [] [] := rfl

theorem cons {event : Program.Event Request.Reply} {deed : Deed} (told : event.deed? = some deed)
    (rest : Transcript trace deeds) : Transcript (event :: trace) (deed :: deeds) := by
  unfold Transcript at rest ⊢
  rw [List.map_cons, List.map_cons, told, rest]

theorem append (one : Transcript first ahead) (two : Transcript second behind) :
    Transcript (first ++ second) (ahead ++ behind) := by
  unfold Transcript at one two ⊢
  rw [List.map_append, List.map_append, one, two]

theorem yielding (told : Transcript trace deeds) : Transcript (trace.map Program.Event.yielding) deeds := by
  unfold Transcript at told ⊢
  rw [← told, List.map_map]
  exact List.map_congr_left fun event _ => event.deed?_yielding

theorem filterMap (told : Transcript trace deeds) : trace.filterMap Program.Event.deed? = deeds := by
  have same := congrArg (List.filterMap id) told
  rwa [List.filterMap_map, List.filterMap_map, Function.id_comp, Function.id_comp, List.filterMap_some] at same

theorem deed (told : Transcript trace deeds) : ∀ event ∈ trace, ∃ deed, event.deed? = some deed := by
  intro event member
  have image : event.deed? ∈ deeds.map some := told ▸ List.mem_map_of_mem member
  obtain ⟨deed, _, same⟩ := List.mem_map.mp image
  exact ⟨deed, same.symm⟩

/-- Events that are all deeds make a transcript. -/
theorem of_deeds (told : ∀ event ∈ trace, ∃ deed, event.deed? = some deed) :
    Transcript trace (trace.filterMap Program.Event.deed?) := by
  induction trace with
  | nil => exact nil
  | cons event trace ih =>
    obtain ⟨⟨deed, now⟩, later⟩ := List.forall_mem_cons.mp told
    rw [List.filterMap_cons_some now]
    exact cons now (ih later)

end Transcript

namespace Surroundings

variable {σ : Type} {surroundings : Surroundings σ}

theorem law_deed {event : Program.Event Request.Reply} {deed : Deed} {before after : Recorded σ}
    (answered : surroundings.recorded.law event.request before event.reply after) (told : event.deed? = some deed) :
    after.deeds = before.deeds ++ [deed] := by
  obtain ⟨request, reply⟩ := event
  cases request with
  | prompt asked =>
    cases told
    exact answered.2
  | await wait =>
    cases wait with
    | call made =>
      cases told
      exact answered.2
    | _ => cases told
  | awaitOrStop wait =>
    cases wait with
    | call made =>
      cases reply with
      | none => cases told
      | some reply =>
        cases told
        exact answered.2
    | _ => cases told

/-- The record grows by the transcript. -/
theorem steps_transcribed {α : Type} {procedure rest : Procedure α} {before after : Recorded σ}
    {trace : List (Program.Event Request.Reply)} {deeds : List Deed}
    (steps : Program.Steps surroundings.recorded.law procedure before trace rest after) (told : Transcript trace deeds) :
    after.deeds = before.deeds ++ deeds := by
  induction steps generalizing deeds with
  | refl =>
    cases List.map_eq_nil_iff.mp told.symm
    exact (List.append_nil _).symm
  | ask answered _ ih =>
    obtain ⟨deed, deeds, rfl, now, later⟩ := List.map_eq_cons_iff.mp told.symm
    rw [ih later.symm, law_deed answered now.symm, List.append_assoc]
    rfl

end Surroundings

namespace Action

variable {α β : Type} {action : Action α} {outcome : Outcome α} {trace : List (Program.Event Request.Reply)}

/-- The action may run like this, if it is answered so. -/
abbrev Ran (action : Action α) (trace : List (Program.Event Request.Reply)) (outcome : Outcome α) : Prop :=
  Program.Runs Law.free action.run () trace outcome ()

theorem ran_pure {value : α} (ran : Ran (pure value) trace outcome) : trace = [] ∧ outcome = .ok value := by
  obtain ⟨rfl, ended, _⟩ := Program.Steps.of_done ran
  exact ⟨rfl, (Program.done.inj ended)⟩

theorem ran_throw {failure : Failure} (ran : Ran (throw failure) trace outcome) :
    trace = [] ∧ outcome = .error failure := by
  obtain ⟨rfl, ended, _⟩ := Program.Steps.of_done ran
  exact ⟨rfl, (Program.done.inj ended)⟩

theorem ran_bind {next : α → Action β} {outcome : Outcome β} (ran : Ran (action >>= next) trace outcome) :
    (∃ failure, outcome = .error failure ∧ Ran action trace (.error failure)) ∨
      ∃ value first second, trace = first ++ second ∧ Ran action first (.ok value) ∧ Ran (next value) second outcome := by
  rcases runs_of_bind ran with failed | ⟨value, _, first, second, split, inside, onward⟩
  · exact Or.inl failed
  · exact Or.inr ⟨value, first, second, split, inside, onward⟩

theorem returned_bind {next : α → Action β} {value : β} (ran : Ran (action >>= next) trace (.ok value)) :
    ∃ middle first second, trace = first ++ second ∧ Ran action first (.ok middle) ∧
      Ran (next middle) second (.ok value) := by
  rcases ran_bind ran with ⟨failure, failed, _⟩ | through
  · cases failed
  · exact through

/-- The last step only names the result. -/
theorem returned_last {next : α → β} {value : β} (ran : Ran (action >>= fun middle => pure (next middle)) trace (.ok value)) :
    ∃ middle, value = next middle ∧ Ran action trace (.ok middle) := by
  obtain ⟨middle, first, second, rfl, inside, ended⟩ := returned_bind ran
  obtain ⟨rfl, same⟩ := ran_pure ended
  rw [List.append_nil]
  exact ⟨middle, Except.ok.inj same, inside⟩

theorem ran_inContext {context : String} (ran : Ran (inContext context action) trace outcome) :
    ∃ inner, outcome = inner.mapError (Failure.within context) ∧ Ran action trace inner := by
  obtain ⟨inner, _, first, second, rfl, inside, onward⟩ := Program.Runs.of_bind ran
  obtain ⟨rfl, ended, _⟩ := Program.Steps.of_done onward
  rw [List.append_nil]
  exact ⟨inner, (Program.done.inj ended), inside⟩

theorem returned_inContext {context : String} {value : α} (ran : Ran (inContext context action) trace (.ok value)) :
    Ran action trace (.ok value) := by
  obtain ⟨inner, same, inside⟩ := ran_inContext ran
  cases inner with
  | error failure => cases same
  | ok found =>
    cases same
    exact inside

/-- An action of one request, with its answer as the outcome. -/
theorem ran_answer {request : Request} {answer : request.Reply → Outcome α}
    (ran : Ran (ExceptT.mk (Program.ask request fun reply => .done (answer reply))) trace outcome) :
    ∃ reply, trace = [⟨request, reply⟩] ∧ outcome = answer reply := by
  cases ran with
  | @ask _ _ _ reply _ _ _ _ _ more =>
    obtain ⟨rfl, ended, _⟩ := more.of_done
    exact ⟨reply, rfl, (Program.done.inj ended)⟩

theorem ran_request {made : Call} {outcome : made.Reply} (ran : Ran (request made) trace outcome) :
    trace = [⟨.await (.call made), outcome⟩] := by
  obtain ⟨reply, rfl, rfl⟩ := ran_answer ran
  rfl

theorem ran_count {counter : Counter} {outcome : Outcome Unit}
    (ran : Ran (liftM (Procedure.count counter)) trace outcome) :
    trace = [⟨.prompt (.count counter), ()⟩] ∧ outcome = .ok () := by
  obtain ⟨reply, rfl, rfl⟩ := ran_answer ran
  exact ⟨rfl, rfl⟩

/-- A procedure that may be interrupted was, or went through as it does when left alone. -/
theorem ran_interruptible {procedure : Procedure α} {ended : Option α}
    (ran : Program.Runs Law.free procedure.interruptible () trace ended ()) :
    (ended = none ∧ ∃ event ∈ trace, event.stops) ∨ ∃ value inner, ended = some value ∧
      trace = inner.map Program.Event.yielding ∧ Program.Runs Law.free procedure () inner value () := by
  induction procedure generalizing trace with
  | done value =>
    obtain ⟨rfl, same, _⟩ := Program.Steps.of_done ran
    exact Or.inr ⟨value, [], Program.done.inj same, rfl, .refl⟩
  | ask request next ih =>
    cases request with
    | prompt asked =>
      cases ran with
      | @ask _ _ _ reply _ _ _ _ _ more =>
        rcases ih reply more with ⟨rfl, event, member, stops⟩ | ⟨value, inner, rfl, rfl, inside⟩
        · exact Or.inl ⟨rfl, event, List.mem_cons_of_mem _ member, stops⟩
        · exact Or.inr ⟨value, ⟨.prompt asked, reply⟩ :: inner, rfl, rfl, .ask trivial inside⟩
    | await wait | awaitOrStop wait =>
      rw [Procedure.interruptible] at ran
      cases ran with
      | @ask _ _ _ reply _ _ _ _ _ more =>
        cases reply with
        | none =>
          obtain ⟨rfl, same, _⟩ := more.of_done
          exact Or.inl ⟨Program.done.inj same, _, List.mem_singleton_self _, rfl⟩
        | some reply =>
          rcases ih _ more with ⟨rfl, event, member, stops⟩ | ⟨value, inner, rfl, rfl, inside⟩
          · exact Or.inl ⟨rfl, event, List.mem_cons_of_mem _ member, stops⟩
          · exact Or.inr ⟨value, _ :: inner, rfl, rfl, .ask trivial inside⟩

/-- A guarded action saw a stop and failed, or it did what it does and looked for a stop first. -/
theorem ran_guarded (ran : Ran (guarded action) trace outcome) :
    (outcome = .error .cancelled ∧ ∃ event ∈ trace, event.stops) ∨ ∃ inner,
      trace = ⟨.prompt .stopRequested, false⟩ :: inner.map Program.Event.yielding ∧ Ran action inner outcome := by
  rw [Ran, guarded_run] at ran
  obtain ⟨ended, _, first, second, rfl, inside, onward⟩ := Program.Runs.of_bind ran
  cases inside with
  | @ask _ _ _ stop _ _ _ _ _ more =>
    cases stop with
    | true =>
      obtain ⟨rfl, same, _⟩ := more.of_done
      cases Program.done.inj same
      obtain ⟨rfl, same, _⟩ := Program.Steps.of_done onward
      exact Or.inl ⟨Program.done.inj same, _, List.mem_cons_self, rfl⟩
    | false =>
      rcases ran_interruptible more with ⟨rfl, event, member, stops⟩ | ⟨value, inner, rfl, rfl, inside⟩
      · obtain ⟨rfl, same, _⟩ := Program.Steps.of_done onward
        exact Or.inl ⟨Program.done.inj same, event, by simp [member], stops⟩
      · obtain ⟨rfl, same, _⟩ := Program.Steps.of_done onward
        cases Program.done.inj same
        exact Or.inr ⟨inner, by simp, inside⟩

theorem returned_guarded {value : α} (ran : Ran (guarded action) trace (.ok value)) : ∃ inner,
    trace = ⟨.prompt .stopRequested, false⟩ :: inner.map Program.Event.yielding ∧ Ran action inner (.ok value) := by
  rcases ran_guarded ran with ⟨cancelled, _⟩ | through
  · cases cancelled
  · exact through

theorem transcript_guarded {α : Type} {action : Action α} {value : α} (ran : Ran (guarded action) trace (.ok value)) :
    ∃ inner, Ran action inner (.ok value) ∧
      ∀ deeds, Transcript inner deeds → Transcript trace (.prompt .stopRequested false :: deeds) := by
  obtain ⟨inner, rfl, inside⟩ := returned_guarded ran
  exact ⟨inner, inside, fun deeds told => .cons rfl told.yielding⟩

theorem transcript_request {made : Call} {value : made.Payload} (ran : Ran (request made) trace (.ok value)) :
    Transcript trace [.call made (.ok value)] := by
  rw [ran_request ran]
  exact .cons rfl .nil

theorem transcript_count {counter : Counter} {value : Unit} (ran : Ran (liftM (Procedure.count counter)) trace (.ok value)) :
    Transcript trace [.prompt (.count counter) ()] := by
  rw [(ran_count ran).1]
  exact .cons rfl .nil

/-- A call that was settled was answered, whatever the answer. -/
theorem transcript_settled {made : Call} {result : made.Reply}
    (ran : Ran (settled (guarded (request made))) trace (.ok result)) :
    Transcript trace [.prompt .stopRequested false, .call made result] := by
  rw [(settled_call ran).1]
  exact .cons rfl (.cons rfl .nil)

end Action

end QuorumWarden
