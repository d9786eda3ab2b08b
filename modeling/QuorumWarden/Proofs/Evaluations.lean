import QuorumWarden.Proofs.QuarantineRules
import QuorumWarden.Watch.ClusterState

/-! An evaluation comes to its verdict before it changes anything. The first thing it counts is
that verdict, so a trace tells the verdict and what was done about it. -/

namespace QuorumWarden

open QuorumWarden.Action

namespace ClusterState

def judge (host : String) : Action (Option (Session × Diagnosis)) := do
  let (session, topology) ← Action.guarded (Node.survey host)
  let row ← liftExcept (topology.row host)
  if row.isPrimary then
    let sample ← Action.guarded (Sample.take host topology.standbys)
    return some (session, sample.diagnose)
  else return none

/-- What is done about a diagnosis once it is counted. -/
def act (host : String) (session : Session) (diagnosis : Diagnosis) : Action (Option Diagnosis) := do
  let fenced ← Fence.isZombie
  match diagnosis.verdict with
  | .confirmed => if fenced then let _ ← Quarantine.lift host session
  | .undecided | .discoveredOther => let _ ← Quarantine.engage host session diagnosis.primary
  return some diagnosis

def respond (host : String) : Option (Session × Diagnosis) → Action (Option Diagnosis)
  | none => return none
  | some (session, diagnosis) => do
    Procedure.count (counter diagnosis.verdict)
    act host session diagnosis

theorem evaluate_eq (host : String) : evaluate host = judge host >>= respond host := by
  simp only [evaluate, judge, bind_assoc]
  congr 1; funext ⟨session, topology⟩
  congr 1; funext row
  split
  · simp only [bind_assoc, pure_bind]
    rfl
  · simp only [pure_bind, respond]

end ClusterState

def Program.Event.counted? : Program.Event Request.Reply → Option Counter
  | ⟨.prompt (.count counter), _⟩ => some counter
  | _ => none

variable {server : Server} {ground : Ground}

/-- Exchanges that set no flag leave the ground as it is, however they are interleaved. -/
theorem Gathers.same {heard heard' : List (Outcome Report)} {strands rest : List Strand} {before after : Ground}
    (gathers : Gathers server.call heard strands before heard' rest after) (start : before = ground)
    (harmless : ∀ strand ∈ strands, Program.Holds server.call
      (fun made now => now = ground ∧ ∀ host database enabled, made ≠ .setReadonly host database enabled)
      (fun _ _ => True) strand.rest ground) : after = ground := by
  induction gathers with
  | refl => exact start
  | ask answered _ ih =>
    subst start
    obtain ⟨⟨_, other⟩, onward⟩ := harmless _ (List.mem_append_right _ (List.mem_cons_self ..))
    have same := Server.call_keeps other answered
    refine ih same ?_
    intro strand member
    rcases List.mem_append.mp member with front | back
    · exact harmless strand (List.mem_append_left _ front)
    rcases List.mem_cons.mp back with rfl | back
    · exact same ▸ onward _ _ answered
    · exact harmless strand (List.mem_append_right _ (List.mem_cons_of_mem _ back))
  | report _ ih =>
    refine ih start fun strand member => harmless strand ?_
    rcases List.mem_append.mp member with front | back
    · exact List.mem_append_left _ front
    · exact List.mem_append_right _ (List.mem_cons_of_mem _ back)
  | fail => exact start

namespace ClusterState

/-- Looking at the stop, or a wait that leaves the ground as it is. -/
def Judging (server : Server) (ground : Ground) (request : Request) (now : Ground) : Prop :=
  now = ground ∧
    match request with
    | .prompt asked => asked = .stopRequested
    | .await wait | .awaitOrStop wait => ∀ after, server.surroundings.part wait ground after → after = ground

theorem judging_call {made : Call} (other : ∀ host database enabled, made ≠ .setReadonly host database enabled) :
    Judging server ground (.await (.call made)) ground := by
  refine ⟨rfl, fun after left => ?_⟩
  rcases left with same | ⟨reply, answered⟩
  · exact same
  · exact Server.call_keeps other answered

theorem holds_judgingGuarded {α : Type} {good : α → Ground → Prop} {action : Action α}
    (holds : Holds server.law (Judging server ground) good (fun _ after => after = ground) action ground) :
    Holds server.law (Judging server ground) good (fun _ after => after = ground) (guarded action) ground := by
  refine Holds.guarded ⟨fun _ _ asked => asked, fun _ _ _ _ answered => answered, ?_⟩ ⟨rfl, rfl⟩ ?_ holds
  · intro wait before after judging left
    obtain ⟨rfl, kept⟩ := judging
    exact kept after left
  · exact fun stop after same => ⟨same, fun _ => rfl⟩

theorem holds_survey : Holds server.law (Judging server ground)
    (fun found after => after = ground ∧ found.1 = ⟨server.host⟩) (fun _ after => after = ground)
    (Node.survey server.host) ground := by
  refine Holds.bind (Holds.inContext (Holds.bind (Holds.request (.connect server.host) (judging_call (by simp)) ?_ ?_)))
  · rintro _ after same
    refine Holds.pure (Holds.bind (Holds.inContext (Holds.bind (Holds.request (.listMembers server.host) ?_ ?_ ?_))))
    · exact (same : after = ground) ▸ judging_call (by simp)
    · exact fun _ _ onward => Holds.pure (Holds.pure ⟨onward.trans same, rfl⟩)
    · exact fun _ _ onward => onward.trans same
  · exact fun _ _ same => same

theorem holds_probe (standby : Member) : Program.Holds server.call
    (fun made now => now = ground ∧ ∀ host database enabled, made ≠ .setReadonly host database enabled)
    (fun _ _ => True) (Sample.probe standby) ground := by
  refine ⟨⟨rfl, by simp⟩, fun reply after same => ?_⟩
  cases reply with
  | error failure => trivial
  | ok session =>
    refine ⟨⟨same, by simp⟩, fun reply _ _ => ?_⟩
    cases reply with
    | error failure => trivial
    | ok primary => trivial

theorem holds_take (standbys : List Member) : Holds server.law (Judging server ground)
    (fun _ after => after = ground) (fun _ after => after = ground) (Sample.take server.host standbys) ground := by
  have harmless : ∀ strand ∈ standbys.map fun standby => (⟨some 0, Sample.probe standby⟩ : Strand),
      Program.Holds server.call
        (fun made now => now = ground ∧ ∀ host database enabled, made ≠ .setReadonly host database enabled)
        (fun _ _ => True) strand.rest ground := by
    intro strand member
    obtain ⟨standby, _, rfl⟩ := List.mem_map.mp member
    exact holds_probe standby
  refine Holds.bind (Holds.lift ⟨⟨rfl, ?_⟩, ?_⟩)
  · intro after part
    obtain ⟨heard, rest, gathers⟩ := part
    exact gathers.same rfl harmless
  · intro heard after gathers
    have same : after = ground := Gathers.same gathers rfl harmless
    exact Holds.bind (Holds.liftExcept (fun _ _ => Holds.pure same) fun _ _ => same)

/-- Nothing is changed and nothing is counted before the verdict. -/
theorem holds_judge : Holds server.law (Judging server ground)
    (fun found after => after = ground ∧ ∀ pair ∈ found, pair.1 = ⟨server.host⟩) (fun _ after => after = ground)
    (judge server.host) ground := by
  refine Holds.bind ((holds_judgingGuarded holds_survey).mono (fun _ _ asked => asked) ?_ fun _ _ same => same)
  intro found _ ended
  obtain ⟨session, topology⟩ := found
  obtain ⟨rfl, rfl⟩ := ended
  refine Holds.bind (Holds.liftExcept ?_ fun _ _ => rfl)
  intro row _
  split
  · refine Holds.bind ((holds_judgingGuarded (holds_take _)).mono (fun _ _ asked => asked) ?_ fun _ _ same => same)
    intro sample _ same
    subst same
    exact Holds.pure ⟨rfl, by simp⟩
  · exact Holds.pure ⟨rfl, by simp⟩

theorem counter_injective {first second : Verdict} (same : counter first = counter second) : first = second := by
  cases first with
  | confirmed | undecided | discoveredOther =>
    cases second with
    | confirmed | undecided | discoveredOther => first | rfl | cases same

/-- What a trace counts first. In an evaluation that is its verdict. -/
def counted? (trace : List (Program.Event Request.Reply)) : Option Counter := trace.findSome? Program.Event.counted?

/-- What a trace goes on with then. -/
def sinceCounted : List (Program.Event Request.Reply) → List (Program.Event Request.Reply)
  | [] => []
  | event :: rest => if event.counted?.isSome then rest else sinceCounted rest

theorem counted_append {asked : List (Program.Event Request.Reply)} (uncounted : ∀ event ∈ asked, event.counted? = none)
    (since : List (Program.Event Request.Reply)) :
    counted? (asked ++ since) = counted? since ∧ sinceCounted (asked ++ since) = sinceCounted since := by
  induction asked with
  | nil => exact ⟨rfl, rfl⟩
  | cons event asked ih =>
    obtain ⟨none, uncounted⟩ := List.forall_mem_cons.mp uncounted
    simpa [counted?, sinceCounted, none] using ih uncounted

theorem judging_uncounted {trace : List (Program.Event Request.Reply)}
    (judging : ∀ event ∈ trace, ∃ now, Judging server ground event.request now) :
    ∀ event ∈ trace, event.counted? = none := by
  intro event member
  obtain ⟨now, _, asked⟩ := judging event member
  rcases event with ⟨prompt | wait | wait, reply⟩
  · cases (asked : prompt = .stopRequested)
    rfl
  · rfl
  · rfl

/-- An evaluation has no verdict yet and changed nothing, or it acts on the verdict that it counted. -/
theorem evaluate_steps {before after : Ground} {trace : List (Program.Event Request.Reply)}
    {rest : Procedure (Outcome (Option Diagnosis))}
    (steps : Program.Steps server.law (evaluate server.host).run before trace rest after) :
    counted? trace = none ∧ after = before ∨ ∃ diagnosis, counted? trace = some (counter diagnosis.verdict) ∧
      Program.Steps server.law (act server.host ⟨server.host⟩ diagnosis).run before (sinceCounted trace) rest after := by
  have judging : Program.Holds server.law (Judging server before) _ _ before := holds_judge.run
  rw [evaluate_eq] at steps
  rcases Program.Steps.of_bind steps with ⟨middle, rfl, inside⟩ | ⟨found, between, asked, since, rfl, judged, onward⟩
  · have uncounted := judging_uncounted (judging.asked inside)
    refine Or.inl ⟨List.findSome?_eq_none_iff.mpr uncounted, ?_⟩
    refine judging.throughout (· = before) (fun _ _ asked => asked.1) ?_ inside
    intro outcome now ended
    rcases outcome with failure | found
    · exact ended
    · exact ended.1
  · have uncounted := judging_uncounted (judging.asked judged)
    have found_spec := judging.steps judged
    obtain ⟨counted, sinceCounted⟩ := counted_append uncounted since
    rw [counted, sinceCounted]
    rcases found with failure | (_ | ⟨session, diagnosis⟩)
    · obtain ⟨rfl, _, same⟩ := onward.of_done
      exact Or.inl ⟨rfl, same.trans found_spec⟩
    · obtain ⟨rfl, _, same⟩ := onward.of_done
      exact Or.inl ⟨rfl, same.trans found_spec.1⟩
    · obtain ⟨rfl, here⟩ := found_spec
      have here : session = ⟨server.host⟩ := here _ rfl
      subst here
      change Program.Steps _ (.ask (.prompt (.count (counter diagnosis.verdict))) fun _ =>
        (act server.host ⟨server.host⟩ diagnosis).run) _ _ _ _ at onward
      cases onward with
      | refl => exact Or.inl ⟨rfl, rfl⟩
      | ask answered more =>
        cases (answered : _ = between)
        exact Or.inr ⟨diagnosis, rfl, more⟩

theorem mem_of_sinceCounted {trace : List (Program.Event Request.Reply)} :
    ∀ event ∈ sinceCounted trace, event ∈ trace := by
  induction trace with
  | nil => simp [sinceCounted]
  | cons first trace ih =>
    intro event member
    rw [sinceCounted] at member
    split at member
    · exact List.mem_cons_of_mem _ member
    · exact List.mem_cons_of_mem _ (ih event member)

variable {admits : Program.Event Request.Reply → Prop} {diagnosis : Diagnosis}

theorem act_suspect (host : String) (session : Session) (suspect : diagnosis.verdict ≠ .confirmed) :
    act host session diagnosis = (do
      let _ ← Fence.isZombie
      let _ ← Quarantine.engage host session diagnosis.primary
      return some diagnosis) := by
  unfold act
  cases verdict : diagnosis.verdict with
  | confirmed => exact absurd verdict suspect
  | undecided => rfl
  | discoveredOther => rfl

theorem act_confirmed (host : String) (session : Session) (confirmed : diagnosis.verdict = .confirmed) :
    act host session diagnosis = (do
      if ← Fence.isZombie then let _ ← Quarantine.lift host session
      return some diagnosis) := by
  unfold act
  rw [confirmed]

/-- A suspect is fenced, unless its evaluation says otherwise and something came in between. -/
theorem holds_act_suspect (even : Evenhanded admits) (suspect : diagnosis.verdict ≠ .confirmed) :
    Holds (server.law.restrict admits)
      (fun request now => Careful server request now ∧ (now = ground ∨ server.Engaged ground now))
      (fun _ after => server.Engaged ground after ∧ server.Fenced after)
      (fun _ after => (after = ground ∨ server.Engaged ground after) ∧ (server.Fenced after ∨
        Quarantine.Hindered server admits ∨ ∃ failure, admits ⟨.prompt (.readMarker .zombieLock), .error failure⟩))
      (act server.host ⟨server.host⟩ diagnosis) ground := by
  rw [act_suspect _ _ suspect]
  refine Holds.bind (holds_holds ⟨trivial, Or.inl rfl⟩ (Holds.bind ((Quarantine.holds_engage even _).mono ?_ ?_ ?_)) ?_)
  · exact fun _ _ asked => asked
  · exact fun _ _ fenced => Holds.pure fenced
  · exact fun _ after ⟨left, ended⟩ => ⟨left, ended.imp_right Or.inl⟩
  · exact fun failure admitted => ⟨Or.inl rfl, Or.inr (Or.inr ⟨failure, admitted⟩)⟩

theorem act_suspect_moves {before after : Ground} {trace : List (Program.Event Request.Reply)}
    {rest : Procedure (Outcome (Option Diagnosis))} (suspect : diagnosis.verdict ≠ .confirmed)
    (acted : Program.Steps server.law (act server.host ⟨server.host⟩ diagnosis).run before trace rest after) :
    after = before ∨ server.Engaged before after := by
  refine (holds_act_suspect evenhanded_all suspect).run.throughout
    (fun now => now = before ∨ server.Engaged before now) (fun _ _ asked => asked.2) ?_
    (acted.restrict fun _ _ => trivial)
  intro outcome now ended
  cases outcome with
  | error failure => exact ended.1
  | ok diagnosed => exact Or.inr ended.1

/-- A confirmed node is rid of its zombie lock and writable again, unless there was no such lock or there was trouble. -/
theorem holds_act_confirmed (even : Evenhanded admits) (confirmed : diagnosis.verdict = .confirmed) :
    Holds (server.law.restrict admits)
      (fun request now => Careful server request now ∧ (now = ground ∨ server.Lifted ground now))
      (fun _ after => if ground.markers.zombieLock = none then after = ground else server.Lifted ground after ∧
        (ground.markers.readonlyLock = none → server.heeds = true → server.Writable after))
      (fun _ after => (after = ground ∨ server.Lifted ground after) ∧ Troubled admits)
      (act server.host ⟨server.host⟩ diagnosis) ground := by
  rw [act_confirmed _ _ confirmed]
  refine Holds.bind (holds_holds ⟨trivial, Or.inl rfl⟩ ?_ ?_)
  · cases lock : ground.markers.zombieLock with
    | none =>
      simp only [Markers.get, lock, Option.isSome_none, Bool.false_eq_true, ↓reduceIte]
      exact Holds.pure rfl
    | some text =>
      simp only [Markers.get, lock, Option.isSome_some, ↓reduceIte, reduceCtorEq]
      refine Holds.bind ((Quarantine.holds_lift even).mono ?_ ?_ ?_)
      · exact fun _ _ asked => asked
      · exact fun _ _ lifted => Holds.pure lifted
      · exact fun _ _ failed => failed
  · exact fun failure admitted => ⟨Or.inl rfl, _, admitted, Or.inr (Option.some_ne_none failure)⟩

theorem act_confirmed_moves {before after : Ground} {trace : List (Program.Event Request.Reply)}
    {rest : Procedure (Outcome (Option Diagnosis))} (confirmed : diagnosis.verdict = .confirmed)
    (acted : Program.Steps server.law (act server.host ⟨server.host⟩ diagnosis).run before trace rest after) :
    after = before ∨ server.Lifted before after := by
  refine (holds_act_confirmed evenhanded_all confirmed).run.throughout
    (fun now => now = before ∨ server.Lifted before now) (fun _ _ asked => asked.2) ?_
    (acted.restrict fun _ _ => trivial)
  intro outcome now ended
  cases outcome with
  | error failure => exact ended.1
  | ok diagnosed =>
    simp only at ended
    split at ended
    next => exact Or.inl ended
    next => exact Or.inr ended.1

end ClusterState

end QuorumWarden
