import QuorumWarden.Proofs.PassRuns
import QuorumWarden.Proofs.TurnManners
import QuorumWarden.Simulation.Turn

/-! What a turn can make of the stage, and what the stage can tell it. A procedure that keeps off the group's own
requests changes the stage by its calls and prompts only; where no collaborator ever cancels, it hears of a cancellation
from a stop alone. -/

namespace QuorumWarden

/-- Neither a request for a stop nor the wait for a task of the group. -/
def Request.SparesGroup : Request → Prop
  | .prompt .requestStop | .await .ending | .awaitOrStop .ending => False
  | _ => True

/-- Fails as cancelled only if a call does. -/
def Mild (exchange : Exchange (Outcome Report)) : Prop :=
  Program.Holds (fun made _ reply _ => Outcome.Uncancelled (α := made.Payload) reply) (fun _ _ => True)
    (fun outcome _ => outcome.Uncancelled) exchange ()

def Wait.Calm : (wait : Wait) → wait.Reply → Prop
  | .call _, reply => Outcome.Uncancelled reply
  | .gather heard strands, reply =>
    (∀ outcome ∈ heard, outcome.Uncancelled) → (∀ strand ∈ strands, Mild strand.rest) →
      ∀ outcome ∈ reply, outcome.Uncancelled
  | _, _ => True

/-- There is no stop, and no collaborator cancels. -/
def Request.Calm : (request : Request) → request.Reply → Prop
  | .prompt .stopRequested, stop => stop = false
  | .prompt (.readMarker _), reply => Outcome.Uncancelled reply
  | .prompt (.writeMarker _ _), reply => Outcome.Uncancelled reply
  | .prompt (.removeMarker _), reply => Outcome.Uncancelled reply
  | .prompt _, _ => True
  | .await wait, reply => wait.Calm reply
  | .awaitOrStop wait, reply => ∃ heard, reply = some heard ∧ wait.Calm heard

/-- Surroundings that are calm, or that may answer anything. -/
def Law.when (calm : Prop) : Law Request Request.Reply Unit := fun request _ reply _ => calm → request.Calm reply

/-- The procedure keeps off the group, and ends so where it is calm. -/
abbrev Procedure.Steady {α : Type} (calm : Prop) (ends : α → Prop) (procedure : Procedure α) : Prop :=
  Program.Holds (Law.when calm) (fun request _ => request.SparesGroup) (fun value _ => calm → ends value) procedure ()

/-- The procedure keeps off the group, whatever it is answered. -/
abbrev Procedure.Tame {α : Type} (procedure : Procedure α) : Prop := procedure.Steady False fun _ => True

/-- However a call is answered, it changes the stage only so. -/
def World.Keeps (κ : Type) [World κ] (stays : Stage κ → Stage κ → Prop) : Prop :=
  ∀ made stage, stays stage (World.call made stage).2

theorem Request.spares_awaitOrStop {wait : Wait} :
    (Request.awaitOrStop wait).SparesGroup ↔ (Request.await wait).SparesGroup := by
  cases wait <;> exact Iff.rfl

/-- To be tame is to keep to such requests. -/
theorem Procedure.tame_iff_asks {α : Type} {procedure : Procedure α} :
    procedure.Tame ↔ procedure.Asks Request.SparesGroup := by
  induction procedure with
  | done value => exact ⟨fun _ => trivial, fun _ _ => trivial⟩
  | ask request next ih =>
    constructor
    · exact fun tame => .ask tame.1 fun reply => (ih reply).mp (tame.2 reply () False.elim)
    · exact fun asks => ⟨asks.1, fun reply _ _ => (ih reply).mpr (asks.2 reply () trivial)⟩

namespace Stage

section

variable {κ : Type}

/-- A stage that goes on: it keeps its endings, its time does not go back, and a stop is not taken back. -/
structure Drifts (before after : Stage κ) : Prop where
  endings : after.endings = before.endings
  heeded : after.heeded = before.heeded
  now : before.now ≤ after.now
  stopped : before.stopped = true → after.stopped = true

theorem Drifts.refl (stage : Stage κ) : Drifts stage stage := ⟨rfl, rfl, Nat.le_refl _, id⟩

theorem Drifts.trans {before between after : Stage κ} (one : Drifts before between) (two : Drifts between after) :
    Drifts before after :=
  ⟨two.endings.trans one.endings, two.heeded.trans one.heeded, Nat.le_trans one.now two.now, two.stopped ∘ one.stopped⟩

theorem Drifts.unstopped {before after : Stage κ} (drift : Drifts before after) (unstopped : after.stopped = false) :
    before.stopped = false :=
  Bool.eq_false_iff.mpr fun stopped => Bool.false_ne_true (unstopped.symm.trans (drift.stopped stopped))

theorem drifts_answer [MarkerStore (StateM κ)] (stage : Stage κ) (asked : Prompt) :
    Drifts stage (stage.answer asked).2 := by
  cases asked with
  | requestStop => exact ⟨rfl, rfl, Nat.le_refl _, fun _ => rfl⟩
  | _ => exact ⟨rfl, rfl, Nat.le_refl _, id⟩

end

variable {κ α : Type} [World κ] {stage : Stage κ}

theorem attempt_spares {wait rest : Wait} {back : rest.Reply → wait.Reply} (spares : (Request.await wait).SparesGroup)
    (held : (stage.attempt wait).1 = .held rest back) : (Request.await rest).SparesGroup := by
  cases wait with
  | call made =>
    simp only [attempt] at held
    split at held
    next => cases held
    next =>
      split at held
      · cases held
      · cases held
        trivial
    next =>
      cases held
      trivial
  | gather heard strands =>
    simp only [attempt] at held
    split at held <;> cases held
    trivial
  | sleepUntil time =>
    simp only [attempt] at held
    split at held <;> cases held
    trivial
  | frequencyNews seen deadline =>
    simp only [attempt] at held
    split at held
    · cases held
    · split at held <;> cases held
      trivial
  | forever =>
    cases held
    trivial
  | ending => exact spares.elim

variable [MarkerStore (StateM κ)]

/-- No collaborator answers with a cancellation. -/
structure Serene (κ : Type) [World κ] [MarkerStore (StateM κ)] : Prop where
  now : ∀ made (stage : Stage κ) reply, (World.call made stage).1 = .now reply → Outcome.Uncancelled reply
  later : ∀ made (stage : Stage κ) time reply, (World.call made stage).1 = .later time reply → Outcome.Uncancelled reply
  read : ∀ marker (world : κ), Outcome.Uncancelled ((MarkerStore.read marker : StateM κ _) world).1
  write : ∀ marker text (world : κ), Outcome.Uncancelled ((MarkerStore.write marker text : StateM κ _) world).1
  remove : ∀ marker (world : κ), Outcome.Uncancelled ((MarkerStore.remove marker : StateM κ _) world).1

/-- What no call and no prompt but a request for a stop can break. -/
structure Frame (stays : Stage κ → Stage κ → Prop) : Prop where
  refl : ∀ stage, stays stage stage
  trans : ∀ {before between after}, stays before between → stays between after → stays before after
  answer : ∀ (stage : Stage κ) asked, asked ≠ .requestStop → stays stage (stage.answer asked).2
  call : World.Keeps κ stays

section

variable {stays : Stage κ → Stage κ → Prop} (frame : Frame stays)
include frame

theorem runStrand_frame (exchange : Exchange (Outcome Report)) (stage : Stage κ) :
    stays stage (stage.runStrand exchange).2 := by
  induction exchange generalizing stage with
  | done outcome => exact frame.refl stage
  | ask made next ih =>
    have called := frame.call made stage
    rw [runStrand]
    split
    next reply after answered =>
      rw [answered] at called
      exact frame.trans called (ih reply after)
    next time reply after answered =>
      rw [answered] at called
      split
      · exact frame.trans called (ih reply after)
      · exact called
    next after answered =>
      rw [answered] at called
      exact called

theorem runStrands_frame (heard : List (Outcome Report)) (strands : List Strand) (stage : Stage κ) :
    stays stage (stage.runStrands heard strands).2 := by
  induction strands generalizing heard stage with
  | nil => exact frame.refl stage
  | cons strand rest ih =>
    rw [runStrands]
    split
    · have ran := runStrand_frame frame strand.rest stage
      split
      next failure after ended =>
        rw [ended] at ran
        exact ran
      next report after ended =>
        rw [ended] at ran
        exact frame.trans ran (ih _ after)
      next held after waits =>
        rw [waits] at ran
        exact frame.trans ran (ih heard after)
    · exact ih heard stage

theorem attempt_frame {wait : Wait} (spares : (Request.await wait).SparesGroup) : stays stage (stage.attempt wait).2 := by
  cases wait with
  | call made =>
    have called := frame.call made stage
    simp only [attempt]
    split
    all_goals
      next answered =>
        rw [answered] at called
        exact called
  | gather heard strands => exact runStrands_frame frame heard strands stage
  | sleepUntil | frequencyNews | forever => exact frame.refl stage
  | ending => exact spares.elim

theorem Frame.manner : Manner Request.SparesGroup stays where
  refl := frame.refl
  trans := frame.trans
  answer := fun stage asked spares => frame.answer stage asked (by rintro rfl; exact spares)
  attempt := fun _ _ spares => attempt_frame frame spares
  held := fun _ _ _ _ spares held => attempt_spares spares held
  yields := fun _ => Request.spares_awaitOrStop

theorem poll_frame {procedure : Procedure α} (tame : procedure.Tame) (stage : Stage κ) :
    stays stage (stage.poll procedure).2 := ((Frame.manner frame).poll (Procedure.tame_iff_asks.mp tame) stage).1

end

theorem frame_drifts (calls : World.Keeps κ Drifts) : Frame (κ := κ) Drifts where
  refl := .refl
  trans := .trans
  answer := fun stage asked _ => drifts_answer stage asked
  call := calls

section

variable (serene : Serene κ)
include serene

theorem runStrand_calm {exchange : Exchange (Outcome Report)} (mild : Mild exchange) (stage : Stage κ) :
    (∀ outcome, (stage.runStrand exchange).1 = .inl outcome → outcome.Uncancelled) ∧
      ∀ held, (stage.runStrand exchange).1 = .inr held → Mild held.rest := by
  induction exchange generalizing stage with
  | done outcome =>
    refine ⟨?_, nofun⟩
    rintro _ ⟨⟩
    exact mild
  | ask made next ih =>
    have onward : ∀ reply, Outcome.Uncancelled (α := made.Payload) reply → Mild (next reply) :=
      fun reply calm => mild.2 reply () calm
    rw [runStrand]
    split
    next reply after answered =>
      exact ih reply (onward reply (serene.now made stage reply (congrArg Prod.fst answered))) after
    next time reply after answered =>
      have calm := onward reply (serene.later made stage time reply (congrArg Prod.fst answered))
      split
      · exact ih reply calm after
      · refine ⟨nofun, ?_⟩
        rintro _ ⟨⟩
        exact calm
    next =>
      refine ⟨nofun, ?_⟩
      rintro _ ⟨⟩
      exact mild

theorem runStrands_calm {heard : List (Outcome Report)} {strands : List Strand} (stage : Stage κ)
    (uncancelled : ∀ outcome ∈ heard, outcome.Uncancelled) (mild : ∀ strand ∈ strands, Mild strand.rest) :
    (∀ outcome ∈ (stage.runStrands heard strands).1.1, outcome.Uncancelled) ∧
      ∀ strand ∈ (stage.runStrands heard strands).1.2, Mild strand.rest := by
  induction strands generalizing heard stage with
  | nil => exact ⟨uncancelled, nofun⟩
  | cons strand rest ih =>
    obtain ⟨here, mild⟩ := List.forall_mem_cons.mp mild
    rw [runStrands]
    split
    · obtain ⟨ended, held⟩ := runStrand_calm serene here stage
      split
      next failure after same =>
        have last := ended (.error failure) (congrArg Prod.fst same)
        exact ⟨List.forall_mem_append.mpr ⟨uncancelled, List.forall_mem_singleton.mpr last⟩, nofun⟩
      next report after same =>
        have last := ended (.ok report) (congrArg Prod.fst same)
        exact ih after (List.forall_mem_append.mpr ⟨uncancelled, List.forall_mem_singleton.mpr last⟩) mild
      next left after same =>
        obtain ⟨calm, others⟩ := ih after uncancelled mild
        refine ⟨calm, ?_⟩
        have waits := held left (congrArg Prod.fst same)
        simp only
        split
        · nofun
        · exact List.forall_mem_cons.mpr ⟨waits, others⟩
    · obtain ⟨calm, others⟩ := ih stage uncancelled mild
      refine ⟨calm, ?_⟩
      simp only
      split
      · nofun
      · exact List.forall_mem_cons.mpr ⟨here, others⟩

theorem attempt_calm (wait : Wait) (stage : Stage κ) :
    (∀ reply, (stage.attempt wait).1 = .ready reply → wait.Calm reply) ∧
      ∀ rest back, (stage.attempt wait).1 = .held rest back → ∀ reply, rest.Calm reply → wait.Calm (back reply) := by
  cases wait with
  | call made =>
    simp only [attempt]
    split
    next answered after same =>
      refine ⟨?_, nofun⟩
      rintro reply ⟨⟩
      exact serene.now made stage _ (congrArg Prod.fst same)
    next time answered after same =>
      have calm := serene.later made stage time answered (congrArg Prod.fst same)
      split
      · refine ⟨?_, nofun⟩
        rintro reply ⟨⟩
        exact calm
      · refine ⟨nofun, ?_⟩
        rintro rest back ⟨⟩ _ _
        exact calm
    next =>
      refine ⟨nofun, ?_⟩
      rintro rest back ⟨⟩ reply
      exact reply.elim
  | gather heard strands =>
    simp only [attempt]
    split
    · refine ⟨?_, nofun⟩
      rintro reply ⟨⟩ uncancelled mild
      exact (runStrands_calm serene stage uncancelled mild).1
    · refine ⟨nofun, ?_⟩
      rintro rest back ⟨⟩ reply calm uncancelled mild
      obtain ⟨heard, others⟩ := runStrands_calm serene stage uncancelled mild
      exact calm heard others
  | _ => exact ⟨fun _ _ => trivial, fun _ _ _ _ _ => trivial⟩

theorem answer_calm (asked : Prompt) (stage : Stage κ) (unstopped : stage.stopped = false) :
    (Request.prompt asked).Calm (stage.answer asked).1 := by
  cases asked with
  | stopRequested => exact unstopped
  | readMarker marker => exact serene.read marker stage.world
  | writeMarker marker text => exact serene.write marker text stage.world
  | removeMarker marker => exact serene.remove marker stage.world
  | _ => trivial

end

variable {calm : Prop} {ends : α → Prop} {procedure : Procedure α}

/-- What is left after a turn is as steady as before, unless the turn came to a stop. -/
theorem poll_steady (serene : calm → Serene κ) (calls : World.Keeps κ Drifts) (tame : procedure.Tame)
    (steady : procedure.Steady calm ends) (stage : Stage κ)
    (unstopped : calm → (stage.poll procedure).2.stopped = false) : (stage.poll procedure).1.Steady calm ends := by
  have drifts : ∀ {procedure : Procedure α}, procedure.Tame → ∀ stage : Stage κ, Drifts stage (stage.poll procedure).2 :=
    poll_frame (frame_drifts calls)
  induction procedure generalizing stage with
  | done value => exact steady
  | ask request next ih =>
    obtain ⟨spares, onward⟩ := steady
    have tame : ∀ reply, Procedure.Tame (next reply) := fun reply => tame.2 reply () False.elim
    cases request with
    | prompt asked =>
      refine ih _ (tame _) (onward _ () fun calm => ?_) _ unstopped
      -- nothing unsays a stop, so none was requested when the prompt was answered
      have answered := (drifts (tame _) _).unstopped (unstopped calm)
      exact answer_calm (serene calm) asked stage ((drifts_answer stage asked).unstopped answered)
    | await wait =>
      revert unstopped
      rw [poll]
      split <;> intro unstopped
      next reply after answered =>
        refine ih reply (tame reply) (onward reply () fun calm => ?_) after unstopped
        exact (attempt_calm (serene calm) wait stage).1 reply (congrArg Prod.fst answered)
      next rest back after waits =>
        have held : (stage.attempt wait).1 = .held rest back := congrArg Prod.fst waits
        refine ⟨attempt_spares spares held, fun reply _ lawful => onward (back reply) () fun calm => ?_⟩
        exact (attempt_calm (serene calm) wait stage).2 rest back held reply (lawful calm)
    | awaitOrStop wait =>
      revert unstopped
      rw [poll]
      split <;> intro unstopped
      next reply after answered =>
        refine ih (some reply) (tame _) (onward _ () fun calm => ⟨reply, rfl, ?_⟩) after unstopped
        exact (attempt_calm (serene calm) wait stage).1 reply (congrArg Prod.fst answered)
      next rest back after waits =>
        have held : (stage.attempt wait).1 = .held rest back := congrArg Prod.fst waits
        revert unstopped
        split <;> intro unstopped
        next stopped =>
          refine ih none (tame none) (onward none () fun calm => ?_) after unstopped
          have still := (drifts (tame none) after).unstopped (unstopped calm)
          exact absurd stopped (Bool.eq_false_iff.mp still)
        next =>
          refine ⟨Request.spares_awaitOrStop.mpr (attempt_spares (Request.spares_awaitOrStop.mp spares) held), ?_⟩
          refine fun reply _ lawful => onward (reply.map back) () fun calm => ?_
          obtain ⟨heard, rfl, fine⟩ := lawful calm
          exact ⟨back heard, rfl, (attempt_calm (serene calm) wait stage).2 rest back held heard fine⟩

theorem resume_steady (serene : calm → Serene κ) (calls : World.Keeps κ Drifts) (tame : procedure.Tame)
    (steady : procedure.Steady calm ends) (stage : Stage κ)
    (unstopped : calm → (stage.resume procedure).2.stopped = false) : (stage.resume procedure).1.Steady calm ends := by
  revert unstopped
  unfold resume
  split <;> intro unstopped
  next wait next =>
    revert unstopped
    split <;> intro unstopped
    next stopped =>
      have tame : Procedure.Tame (next none) := tame.2 none () False.elim
      refine poll_steady serene calls tame (steady.2 none () fun calm => ?_) stage unstopped
      have drift := poll_frame (frame_drifts calls) tame stage
      exact absurd (drift.stopped stopped) (Bool.eq_false_iff.mp (unstopped calm))
    next => exact poll_steady serene calls tame steady stage unstopped
  next => exact poll_steady serene calls tame steady stage unstopped

end Stage

end QuorumWarden
