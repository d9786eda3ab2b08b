import QuorumWarden.Proofs.NodeGround
import QuorumWarden.Watch.ClusterState

/-! Grounds that answer by a playbook. Their answers are lawful, so what a playbook plays is a run. -/

namespace QuorumWarden

theorem Gathers.of_steps {σ : Type} {call : (made : Call) → σ → made.Reply → σ → Prop}
    {exchange rest : Exchange (Outcome Report)} {before between after : σ} {trace : List (Program.Event Call.Reply)}
    (front : List Strand) (steps : Program.Steps call exchange before trace rest between)
    {heard heard' : List (Outcome Report)} {back strands : List Strand} {wakesAt : Option Nat}
    (more : Gathers call heard (front ++ ⟨wakesAt, rest⟩ :: back) between heard' strands after) :
    Gathers call heard (front ++ ⟨wakesAt, exchange⟩ :: back) before heard' strands after := by
  induction steps with
  | refl => exact more
  | ask answered _ ih => exact .ask answered (ih more)

/-- A server that does as it is told, the catalog of its cluster, and what goes wrong all the
same: calls that fail, a zombie lock that cannot be read, and calls that are not answered. -/
structure Playbook where
  server : Server
  members : List Member := []
  broken : List Call := []
  unreadable : Bool := false
  silent : List Call := []

namespace Playbook

def failure : Failure := .external "injected failure"

def done (playbook : Playbook) : (made : Call) → Ground → made.Reply × Ground
  | .listMembers _, ground => (.ok playbook.members, ground)
  | .primaryMember _, ground => (.ok (playbook.members.find? Member.isPrimary), ground)
  | .databases _, ground => (.ok playbook.server.databases, ground)
  | .setReadonly host database enabled, ground =>
    (.ok (), if host = playbook.server.host then ground.setReadonly database enabled else ground)
  | .readonly _ database, ground => (.ok (ground.readonly database), ground)
  | .connect _, ground | .unregister _ _, ground | .dropSlot _ _, ground => (.ok (), ground)
  | .setPeerReadonly _ _, ground | .setUpstream _, ground | .prune, ground => (.ok (), ground)
  | .slots _, ground | .listBackups, ground => (.ok [], ground)
  | .peerReadonly _, ground => (.ok false, ground)
  | .backup _, ground => (.ok "", ground)

def call (playbook : Playbook) (made : Call) (ground : Ground) : Option (made.Reply × Ground) :=
  if made ∈ playbook.silent then none
  else if made ∈ playbook.broken then some (.error failure, ground)
  else some (playbook.done made ground)

def prompt (playbook : Playbook) : (asked : Prompt) → Ground → Option (asked.Reply × Ground)
  | .stopRequested, ground => some (false, ground)
  | .count _, ground | .notice _, ground => some ((), ground)
  | .readMarker marker, ground =>
    some (if playbook.unreadable && marker == .zombieLock then .error failure else .ok (ground.markers.get marker), ground)
  | .writeMarker marker text, ground => some (.ok (), ground.setMarker marker (some text))
  | .removeMarker marker, ground => some (.ok (), ground.setMarker marker none)
  | _, _ => none

def gather (playbook : Playbook) (heard : List (Outcome Report)) :
    List Strand → Ground → Option (List (Outcome Report) × Ground)
  | [], ground => some (heard, ground)
  | strand :: rest, ground =>
    match strand.rest.play playbook.call ground with
    | (_, .done (.ok report), after) => gather playbook (heard ++ [.ok report]) rest after
    | (_, .done (.error failure), after) => some (heard ++ [.error failure], after)
    | _ => none

def wait (playbook : Playbook) : (wait : Wait) → Ground → Option (wait.Reply × Ground)
  | .call made, ground => playbook.call made ground
  | .gather heard strands, ground => playbook.gather heard strands ground
  | _, _ => none

def answer (playbook : Playbook) : (request : Request) → Ground → Option (request.Reply × Ground)
  | .prompt asked, ground => playbook.prompt asked ground
  | .await wait, ground => playbook.wait wait ground
  | .awaitOrStop wait, ground => (playbook.wait wait ground).map fun (reply, after) => (some reply, after)

variable {playbook : Playbook} {before after : Ground}

theorem done_lawful (made : Call) : playbook.server.call made before (playbook.done made before).1 (playbook.done made before).2 := by
  cases made with
  | databases host =>
    exact ⟨rfl, fun _ names told => (Except.ok.inj told).symm⟩
  | readonly host database =>
    exact ⟨rfl, fun _ flag told => (Except.ok.inj told).symm⟩
  | setReadonly host database enabled =>
    by_cases here : host = playbook.server.host
    · exact Or.inr ⟨here, by simp [done, here]⟩
    · exact Or.inl ⟨by simp [done, here], fun same => absurd same here⟩
  | _ => rfl

theorem call_lawful (made : Call) {reply : made.Reply} (answered : playbook.call made before = some (reply, after)) :
    playbook.server.call made before reply after := by
  unfold call at answered
  split at answered
  · cases answered
  split at answered
  · cases answered
    cases made with
    | databases host => exact ⟨rfl, fun _ _ told => by cases told⟩
    | readonly host database => exact ⟨rfl, fun _ _ told => by cases told⟩
    | setReadonly host database enabled => exact Or.inl ⟨rfl, fun _ _ success => by cases success⟩
    | _ => rfl
  · have lawful : playbook.server.call made before (playbook.done made before).1 (playbook.done made before).2 :=
      done_lawful made
    rw [Option.some.inj answered] at lawful
    exact lawful

theorem gather_lawful {heard reply : List (Outcome Report)} {strands : List Strand}
    (answered : playbook.gather heard strands before = some (reply, after)) :
    Gathers playbook.server.call heard strands before reply [] after := by
  induction strands generalizing heard before with
  | nil =>
    cases answered
    exact .refl
  | cons strand strands ih =>
    have steps : Program.Steps playbook.server.call _ _ _ _ _ :=
      Program.play_steps (fun made _ _ _ => call_lawful made) strand.rest before
    rw [gather] at answered
    split at answered
    next report between played =>
      rw [played] at steps
      exact Gathers.of_steps [] steps (.report (ih answered))
    next failure between played =>
      cases answered
      rw [played] at steps
      exact Gathers.of_steps [] steps .fail
    next => cases answered

theorem wait_lawful (wait : Wait) {reply : wait.Reply} (answered : playbook.wait wait before = some (reply, after)) :
    playbook.server.surroundings.wait wait before reply after := by
  cases wait with
  | call made => exact call_lawful made answered
  | gather heard strands => exact gather_lawful answered
  | _ => cases answered

theorem prompt_lawful (asked : Prompt) {reply : asked.Reply} (answered : playbook.prompt asked before = some (reply, after)) :
    Ground.prompt asked before reply after := by
  cases asked with
  | stopRequested | count counter | notice said =>
    cases answered
    rfl
  | readMarker marker =>
    cases answered
    refine ⟨rfl, fun text told => ?_⟩
    split at told
    · cases told
    · exact (Except.ok.inj told).symm
  | writeMarker marker text | removeMarker marker =>
    cases answered
    exact Or.inr rfl
  | _ => cases answered

theorem answer_lawful (request : Request) {reply : request.Reply}
    (answered : playbook.answer request before = some (reply, after)) : playbook.server.law request before reply after := by
  cases request with
  | prompt asked => exact prompt_lawful asked answered
  | await wait => exact wait_lawful wait answered
  | awaitOrStop wait =>
    obtain ⟨⟨reply', after'⟩, told, same⟩ := Option.map_eq_some_iff.mp answered
    cases same
    exact wait_lawful wait told

def plays {α : Type} (playbook : Playbook) (procedure : Procedure α) (ground : Ground) :
    List (Program.Event Request.Reply) × Procedure α × Ground := procedure.play playbook.answer ground

theorem plays_steps {α : Type} (procedure : Procedure α) (ground : Ground) :
    Program.Steps playbook.server.law procedure ground (playbook.plays procedure ground).1
      (playbook.plays procedure ground).2.1 (playbook.plays procedure ground).2.2 :=
  Program.play_steps (fun request _ _ _ => answer_lawful request) procedure ground

theorem plays_runs {α : Type} {procedure : Procedure α} {ground : Ground} {value : α}
    (ended : (playbook.plays procedure ground).2.1 = .done value) :
    Program.Runs playbook.server.law procedure ground (playbook.plays procedure ground).1 value
      (playbook.plays procedure ground).2.2 := by
  have steps := playbook.plays_steps procedure ground
  rw [ended] at steps
  exact steps

end Playbook

end QuorumWarden
