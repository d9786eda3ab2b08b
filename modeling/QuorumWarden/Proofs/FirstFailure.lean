import Mathlib
import QuorumWarden.Proofs.GroupJoins
import QuorumWarden.Proofs.StageFrames

/-! What the wait for a group comes to, in whatever order its tasks end. The first task that fails by itself is the one
to blame; what fails after it may be due to the stop. -/

namespace QuorumWarden

open Procedure

/-- No wait for a task of the group. -/
def Request.SparesEndings : Request → Prop
  | .await .ending | .awaitOrStop .ending => False
  | _ => True

namespace Ending

/-- The task came to its end or was cancelled. -/
inductive Benign : Ending → Prop where
  | succeeded (task : String) : Benign (.returned task (.ok ()))
  | cancelled (task : String) {failure : Failure} (cancelled : failure.cause = .cancelled) :
    Benign (.returned task (.error failure))

/-- The task failed by itself, and this is how a group says so. -/
inductive Fails : Ending → Failure → Prop where
  | returned (task : String) {failure : Failure} (uncancelled : failure.cause ≠ .cancelled) :
    Fails (.returned task (.error failure)) (failure.within ("task " ++ task ++ " failed"))
  | brokenOff (why : String) :
    Fails (@Ending.brokenOff why) ((Failure.external why).within "supervised task aborted")

def task? : Ending → Option String
  | .returned task _ => some task
  | .brokenOff => none

end Ending

namespace Group

theorem failure?_eq_none_iff {ending : Ending} : failure? ending = none ↔ ending.Benign := by
  constructor
  · intro blameless
    rcases ending with ⟨task, failure | ⟨⟩⟩ | _
    · refine .cancelled task (of_decide_eq_true (eq_true_of_ne_false fun uncancelled => ?_))
      rw [failure?, Failure.isCancelled, uncancelled] at blameless
      cases blameless
    · exact .succeeded task
    · cases blameless
  · rintro (task | ⟨task, cancelled⟩)
    · rfl
    · exact if_pos (decide_eq_true cancelled)

theorem failure?_eq_some_iff {ending : Ending} {failure : Failure} :
    failure? ending = some failure ↔ ending.Fails failure := by
  constructor
  · intro blamed
    rcases ending with ⟨task, failure | ⟨⟩⟩ | _
    · rw [failure?] at blamed
      split at blamed
      next => cases blamed
      next uncancelled =>
        cases blamed
        exact .returned task fun cancelled => uncancelled (decide_eq_true cancelled)
    · cases blamed
    · cases blamed
      exact .brokenOff _
  · rintro (⟨task, uncancelled⟩ | _)
    · exact if_neg fun cancelled => uncancelled (of_decide_eq_true cancelled)
    · rfl

/-- The outcome of a group whose tasks have ended so, one after another. -/
structure Concludes (endings : List Ending) (outcome : Outcome Unit) : Prop where
  succeeded : outcome = .ok () ↔ ∀ ending ∈ endings, ending.Benign
  failed : ∀ failure, outcome = .error failure ↔ ∃ before ending after,
    endings = before ++ ending :: after ∧ ending.Fails failure ∧ ∀ earlier ∈ before, earlier.Benign

/-- What the group returns when all its tasks have ended. -/
def verdict (first : Option Failure) : Outcome Unit := first.elim (.ok ()) .error

theorem joinAfter_zero (first : Option Failure) : (joinAfter 0 first).run = .done (verdict first) := by
  cases first <;> rfl

theorem verdict_eq_ok_iff {first : Option Failure} : verdict first = .ok () ↔ first = none := by
  cases first <;> simp [verdict]

theorem verdict_eq_error_iff {first : Option Failure} {failure : Failure} :
    verdict first = .error failure ↔ first = some failure := by
  cases first <;> simp [verdict]

theorem concludes_first (endings : List Ending) : Concludes endings (verdict (endings.findSome? failure?)) where
  succeeded := by simp only [verdict_eq_ok_iff, List.findSome?_eq_none_iff, failure?_eq_none_iff]
  failed := fun failure => by
    simp only [verdict_eq_error_iff, List.findSome?_eq_some_iff, failure?_eq_none_iff, failure?_eq_some_iff]

end Group

theorem Stage.manner_drifts {κ : Type} [World κ] [MarkerStore (StateM κ)] (calls : World.Keeps κ Stage.Drifts) :
    Stage.Manner (κ := κ) Request.SparesEndings Stage.Drifts := by
  have spares : ∀ wait, (Request.await wait).SparesEndings ↔ (Request.await wait).SparesGroup := by
    intro wait
    cases wait <;> exact Iff.rfl
  exact
    { refl := .refl
      trans := .trans
      answer := fun stage asked _ => drifts_answer stage asked
      attempt := fun _ wait may => attempt_frame (frame_drifts calls) ((spares wait).mp may)
      held := fun _ {wait rest _} may held => (spares rest).mpr (attempt_spares ((spares wait).mp may) held)
      yields := fun wait => by cases wait <;> exact Iff.rfl }

namespace Crew

variable {σ κ : Type}

/-- The tasks at work, and those that have returned. -/
def names (crew : Crew σ κ) : List String :=
  crew.workers.map Worker.name ++ crew.stage.endings.filterMap (·.2.task?)

/-- A task returns under its own name or breaks off. -/
theorem task?_of_ending? {name : String} {rest : Procedure (Round σ)} {ending : Ending}
    (told : ending? name rest = some ending) : ∀ task ∈ ending.task?, task = name := by
  rcases rest with ⟨state | outcome | _⟩ | _ <;> cases told
  · rintro _ ⟨⟩
    rfl
  · nofun

theorem names_retire {crew : Crew σ κ} (numbered : crew.Numbered) {worker : Worker σ} (member : worker ∈ crew.workers)
    {ending : Ending} (own : ∀ task ∈ ending.task?, task = worker.name) :
    (crew.retire worker crew.stage ending).names.Subperm crew.names := by
  have workers := (others_perm numbered.distinct member).map Worker.name
  have last : ([(crew.stage.now, ending)].filterMap (·.2.task?)).Sublist [worker.name] := by
    cases told : ending.task? with
    | none => simp [told]
    | some task => simp [told, own task told]
  rw [names, names, retire, List.filterMap_append]
  refine List.Subperm.trans ?_ (workers.append_right _).symm.subperm
  rw [List.map_cons, List.cons_append, ← List.append_assoc]
  exact ((List.Sublist.refl _).append last).subperm.trans (List.perm_append_singleton _ _).subperm

theorem names_suspend {crew : Crew σ κ} (numbered : crew.Numbered) {worker : Worker σ} (member : worker ∈ crew.workers)
    (rest : Procedure (Round σ)) : (crew.suspend worker crew.stage rest).names.Perm crew.names := by
  have workers := (others_perm numbered.distinct member).map Worker.name
  rw [names, names, suspend, List.map_append, List.map_singleton]
  exact ((List.perm_append_singleton _ _).trans workers.symm).append_right _

end Crew

namespace Company

variable {σ κ : Type} {names : List String} {company : Company σ κ}

/-- The tasks of these names are at work or have ended, and they are being joined: of the endings heeded so far the join
knows the first failure. -/
structure Underway (names : List String) (company : Company σ κ) : Prop where
  numbered : company.crew.Numbered
  spares : ∀ worker ∈ company.crew.workers, worker.rest.Asks Request.SparesEndings
  named : company.crew.names.Subperm names
  counted : company.crew.workers.length + company.crew.stage.endings.length = names.length
  heeded : company.crew.stage.heeded ≤ company.crew.stage.endings.length
  halted : 0 < company.crew.stage.heeded → company.crew.stage.stopped = true
  joining : company.main = (Group.joinAfter (names.length - company.crew.stage.heeded)
    ((company.crew.stage.endings.take company.crew.stage.heeded).findSome? (Group.failure? ·.2))).run

theorem Underway.drifts (underway : company.Underway names) {stage : Stage κ} (drift : company.crew.stage.Drifts stage) :
    (company.onStage stage).Underway names := by
  obtain ⟨numbered, spares, named, counted, heeded, halted, joining⟩ := underway
  rw [Crew.names] at named
  rw [← drift.endings] at named counted heeded joining
  rw [← drift.heeded] at heeded halted joining
  exact ⟨⟨numbered.distinct, numbered.issued⟩, spares, named, counted, heeded, drift.stopped ∘ halted, joining⟩

theorem Underway.retire (underway : company.Underway names) {worker : Worker σ} (member : worker ∈ company.crew.workers)
    {ending : Ending} (own : ∀ task ∈ ending.task?, task = worker.name) :
    Underway names { company with crew := company.crew.retire worker company.crew.stage ending } := by
  obtain ⟨numbered, spares, named, counted, heeded, halted, joining⟩ := underway
  refine ⟨numbered.retire worker _ ending, fun other among => ?_, (Crew.names_retire numbered member own).trans named,
    (numbered.counted_retire member _ ending).trans counted, Crew.heeded_retire heeded worker ending, halted, ?_⟩
  · exact spares other ((company.crew.others_sublist worker).subset among)
  · simp only [Crew.retire]
    rwa [List.take_append_of_le_length heeded]

theorem Underway.suspend (underway : company.Underway names) {worker : Worker σ} (member : worker ∈ company.crew.workers)
    {rest : Procedure (Round σ)} (asks : rest.Asks Request.SparesEndings) :
    Underway names { company with crew := company.crew.suspend worker company.crew.stage rest } := by
  obtain ⟨numbered, spares, named, counted, heeded, halted, joining⟩ := underway
  refine ⟨numbered.suspend worker _ rest, ?_, (Crew.names_suspend numbered member rest).subperm.trans named, ?_, heeded,
    halted, joining⟩
  · refine List.forall_mem_append.mpr ⟨fun other among => ?_, List.forall_mem_singleton.mpr asks⟩
    exact spares other ((company.crew.others_sublist worker).subset among)
  · rw [numbered.counted_suspend member]
    exact counted

/-- The first ending calls for a turn of the join, unless a stop came before it. -/
theorem Underway.awaited (underway : company.Underway names) (ended : company.crew.stage.endings ≠ [])
    (unstopped : company.crew.stage.stopped = false) : company.Awaited := by
  have some := List.length_pos_iff.mpr ended
  have unheeded : company.crew.stage.heeded = 0 := Nat.eq_zero_of_not_pos fun heard =>
    Bool.false_ne_true (unstopped.symm.trans (underway.halted heard))
  have joins := underway.joining
  obtain ⟨further, left⟩ : ∃ further, names.length - company.crew.stage.heeded = further + 1 :=
    Nat.exists_eq_succ_of_ne_zero (by have := underway.counted; omega)
  rw [left] at joins
  exact awaited_of_unheeded joins (by omega)

theorem Underway.concludes (underway : company.Underway names) {outcome : Outcome Unit}
    (done : company.main = .done outcome) :
    company.crew.size = 0 ∧ Group.Concludes (company.crew.stage.endings.map Prod.snd) outcome := by
  obtain ⟨_, _, _, counted, heeded, _, joining⟩ := underway
  cases left : names.length - company.crew.stage.heeded with
  | succ further =>
    rw [done, left, Group.joinAfter_run] at joining
    cases joining
  | zero =>
    have all : company.crew.stage.heeded = company.crew.stage.endings.length := by omega
    rw [done, left, Group.joinAfter_zero, all, List.take_length] at joining
    cases joining
    refine ⟨?_, ?_⟩
    · rw [Crew.size]
      omega
    · have concludes := Group.concludes_first (company.crew.stage.endings.map Prod.snd)
      rwa [List.findSome?_map] at concludes

variable [World κ] [MarkerStore (StateM κ)]

/-- At its turn the join takes in all that has ended. -/
theorem Underway.attended_eq (underway : company.Underway names) : company.attended =
    ⟨{ company.crew with
        stage := company.crew.stage.takeIn (company.crew.stage.endings.length - company.crew.stage.heeded) },
      (Group.joinAfter (names.length - company.crew.stage.endings.length)
        (company.crew.stage.endings.findSome? (Group.failure? ·.2))).run⟩ := by
  obtain ⟨_, _, _, counted, heeded, _, joining⟩ := underway
  let blamed : List (Nat × Ending) → Option Failure := List.findSome? (Group.failure? ·.2)
  obtain ⟨heard, polled, few, all, within⟩ := company.crew.stage.poll_joinAfter
    (names.length - company.crew.stage.heeded) (blamed (company.crew.stage.endings.take company.crew.stage.heeded))
  have within := within heeded
  obtain rfl : heard = company.crew.stage.endings.length - company.crew.stage.heeded := by omega
  have left : names.length - company.crew.stage.heeded -
      (company.crew.stage.endings.length - company.crew.stage.heeded) =
        names.length - company.crew.stage.endings.length := by omega
  have first : (blamed (company.crew.stage.endings.take company.crew.stage.heeded)).or
      (blamed ((company.crew.stage.endings.drop company.crew.stage.heeded).take
        (company.crew.stage.endings.length - company.crew.stage.heeded))) = blamed company.crew.stage.endings := by
    rw [List.take_of_length_le (Nat.le_of_eq List.length_drop), ← List.findSome?_append, List.take_append_drop]
  rw [attended, joining, Stage.resume_joinAfter, polled, left, first]

theorem Underway.attended_stopped (underway : company.Underway names) :
    company.attended.crew.stage.stopped = true ↔
      company.crew.stage.stopped = true ∨ company.crew.stage.endings ≠ [] := by
  have heeded := underway.heeded
  have halted := underway.halted
  rw [underway.attended_eq, ← List.length_pos_iff]
  simp only [Stage.takeIn, Bool.or_eq_true, decide_eq_true_eq]
  constructor
  · exact Or.imp_right (by omega)
  · rintro (stopped | some)
    · exact Or.inl stopped
    · rcases Nat.eq_zero_or_pos company.crew.stage.heeded with none | heard
      · exact Or.inr (by omega)
      · exact Or.inl (halted heard)

theorem Underway.attend (underway : company.Underway names) : company.attended.Underway names := by
  have stops := underway.attended_stopped
  rw [underway.attended_eq] at stops ⊢
  obtain ⟨numbered, spares, named, counted, heeded, _, _⟩ := underway
  have all : company.crew.stage.heeded + (company.crew.stage.endings.length - company.crew.stage.heeded) =
      company.crew.stage.endings.length := by omega
  refine ⟨⟨numbered.distinct, numbered.issued⟩, spares, named, counted, Nat.le_of_eq all, fun heard => ?_, ?_⟩
  · exact stops.mpr (Or.inr (List.length_pos_iff.mp (Nat.lt_of_lt_of_eq heard all)))
  · simp only [Stage.takeIn, all, List.take_length]

theorem Underway.returns (underway : company.Underway names) (ended : company.crew.size = 0) :
    (∃ outcome, company.main = .done outcome) ∨
      company.Awaited ∧ ∃ outcome, company.attended.main = .done outcome := by
  have counted := underway.counted
  have joins := underway.joining
  rw [Crew.size] at ended
  cases left : names.length - company.crew.stage.heeded with
  | zero =>
    rw [left, Group.joinAfter_zero] at joins
    exact Or.inl ⟨_, joins⟩
  | succ further =>
    rw [left] at joins
    have all : names.length - company.crew.stage.endings.length = 0 := by omega
    refine Or.inr ⟨awaited_of_unheeded joins (by omega), ?_⟩
    rw [underway.attended_eq, all, Group.joinAfter_zero]
    exact ⟨_, rfl⟩

theorem Underway.empty (underway : company.Underway []) :
    company.main = .done (.ok ()) ∧ company.attended = company := by
  have counted := underway.counted
  rw [List.length_nil] at counted
  have unended : company.crew.stage.endings = [] := List.eq_nil_of_length_eq_zero (by omega)
  have main : company.main = .done (.ok ()) := by
    rw [underway.joining, unended, List.take_nil, List.length_nil, Nat.zero_sub]
    rfl
  refine ⟨main, ?_⟩
  rw [attended, main]
  obtain ⟨crew, _⟩ := company
  cases main
  rfl

variable {round : σ → Procedure (Round σ)} (calls : World.Keeps κ Stage.Drifts)
  (rounds : ∀ state, (round state).Asks Request.SparesEndings)
include calls rounds

theorem Underway.turn (underway : company.Underway names) {worker : Worker σ} (member : worker ∈ company.crew.workers) :
    Underway names { company with crew := company.crew.turn round worker } := by
  obtain ⟨rest, stage, ran, turned⟩ := company.crew.turn_shape round worker
  obtain ⟨drift, asks⟩ := (Stage.manner_drifts calls).runWorker rounds (underway.spares worker member) Crew.patience
    company.crew.stage
  rw [ran] at drift asks
  have underway := underway.drifts drift
  rcases turned with ⟨ending, told, turned⟩ | ⟨_, turned⟩
  · rw [turned]
    exact underway.retire member (Crew.task?_of_ending? told)
  · rw [turned]
    exact underway.suspend member asks

theorem Course.underway {start : Company σ κ} {mishaps : Prop} {turns : Nat}
    (course : Course round Stage.Drifts mishaps start turns company) (underway : start.Underway names) :
    company.Underway names := by
  induction course with
  | start => exact underway
  | turn _ member ih => exact ih.turn calls rounds member
  | attend _ _ ih => exact ih.attend
  | outside _ drift ih => exact ih.drifts drift
  | mishap _ _ member _ ih => exact ih.retire member nofun

end Company

/-- The wait for a group, whatever its tasks do and in whatever order they end. Tasks that have not returned under their
own names or broken off are at work. At its turn the join stops the group if any task has ended and leaves the stop alone
if none has, and the first ending calls for such a turn. It returns when all tasks have ended, and only then: without a
failure if every task succeeded or was cancelled, and else with the first failure among the endings in their order. An
empty group has returned at once, and is not stopped. -/
theorem join_reports_first_failure {σ κ : Type} [World κ] [MarkerStore (StateM κ)] {round : σ → Procedure (Round σ)}
    (calls : World.Keeps κ Stage.Drifts) (rounds : ∀ state, (round state).Asks Request.SparesEndings) {crew : Crew σ κ}
    (numbered : crew.Numbered) (spares : ∀ worker ∈ crew.workers, worker.rest.Asks Request.SparesEndings)
    (unended : crew.stage.endings = []) (unheeded : crew.stage.heeded = 0) {turns : Nat} {company : Company σ κ}
    (course : Company.Course round Stage.Drifts True ⟨crew, (Group.join crew.size).run⟩ turns company) :
    (company.crew.size + company.crew.stage.endings.length = crew.size ∧
        company.crew.names.Subperm (crew.workers.map Worker.name)) ∧
      (company.attended.crew.stage.stopped = true ↔
        company.crew.stage.stopped = true ∨ company.crew.stage.endings ≠ []) ∧
      (company.crew.stage.endings ≠ [] → company.crew.stage.stopped = false → company.Awaited) ∧
      (∀ outcome, company.main = .done outcome →
        company.crew.size = 0 ∧ Group.Concludes (company.crew.stage.endings.map Prod.snd) outcome) ∧
      (company.crew.size = 0 → (∃ outcome, company.main = .done outcome) ∨
        company.Awaited ∧ ∃ outcome, company.attended.main = .done outcome) ∧
      (crew.size = 0 → company.main = .done (.ok ()) ∧ company.attended = company) := by
  have start : (Company.mk crew (Group.join crew.size).run).Underway (crew.workers.map Worker.name) := by
    refine ⟨numbered, spares, ?_, ?_, ?_, ?_, ?_⟩
    · simpa [Crew.names, unended] using List.Subperm.refl _
    · simp [unended]
    · simp [unheeded]
    · simp [unheeded]
    · simp [unheeded, Group.join, Crew.size]
  have underway := course.underway calls rounds start
  have counted := underway.counted
  rw [List.length_map] at counted
  refine ⟨⟨counted, underway.named⟩, underway.attended_stopped, underway.awaited, fun _ => underway.concludes,
    underway.returns, fun empty => ?_⟩
  rw [List.eq_nil_of_length_eq_zero empty, List.map_nil] at underway
  exact underway.empty

/-- Two tasks that wait for a stop, one that fails and one that never ends by itself. -/
def Crew.troubled : Crew Unit Diary :=
  let idle : Crew Unit Diary := { stage := { world := {} } }
  let waiting (outcome : Outcome Unit) : Procedure (Round Unit) :=
    .ask (.awaitOrStop .forever) fun _ => .done (.finished outcome)
  (((idle.add "watch" (waiting (.error (Failure.cancelled.within "round abandoned")))).add "identity"
    (.done (.finished (.error (.message "cannot resolve node identity"))))).add "mirror"
    (.ask (.await .forever) fun reply => reply.elim)).add "backup" (waiting (.ok ()))

/-- One task fails and the group is stopped. Then another breaks off, and the last two end well or as cancelled. -/
theorem join_reports_first_failure_troubled : ∃ turns company,
    Company.Course (fun _ => .done (.finished (.ok ()))) Stage.Drifts True ⟨Crew.troubled, (Group.join 4).run⟩ turns company ∧
      company.crew.stage.endings.length = 4 ∧
      company.main = .done (.error ((Failure.message "cannot resolve node identity").within "task identity failed")) ∧
      company.crew.size = 0 ∧ Group.Concludes (company.crew.stage.endings.map Prod.snd)
        (.error ((Failure.message "cannot resolve node identity").within "task identity failed")) := by
  have calls : World.Keeps Diary Stage.Drifts := fun _ _ => ⟨rfl, rfl, Nat.le_refl _, id⟩
  have numbered : Crew.troubled.Numbered := ⟨by decide, by simp [Crew.troubled, Crew.add]⟩
  have spares : ∀ worker ∈ Crew.troubled.workers, worker.rest.Asks Request.SparesEndings := by
    have waits : ∀ outcome : Outcome Unit, Procedure.Asks Request.SparesEndings
        (.ask (.awaitOrStop .forever) fun _ => .done (.finished outcome) : Procedure (Round Unit)) :=
      fun _ => .ask trivial fun _ => trivial
    simp only [Crew.troubled, Crew.add, List.nil_append, List.cons_append, List.forall_mem_cons]
    exact ⟨waits _, trivial, .ask trivial fun reply => reply.elim, waits _, List.forall_mem_nil _⟩
  obtain ⟨_, course⟩ := (Company.Course.start : Company.Course (fun _ => .done (.finished (.ok ()))) Stage.Drifts True
    ⟨Crew.troubled, (Group.join 4).run⟩ 0 _).settle numbered 1
  have broken := (course.attend ⟨by cbv, by cbv⟩).mishap trivial (List.getElem_mem (show 1 < _ by cbv)) "task panicked"
  obtain ⟨_, course⟩ := broken.settle (broken.numbered numbered) 1
  have joined := course.attend ⟨by cbv, by cbv⟩
  have ends := (join_reports_first_failure calls (fun _ => .done) numbered spares rfl rfl joined).2.2.2.1
  refine ⟨_, _, joined, by cbv, ?main, ends _ ?main⟩
  cbv

end QuorumWarden
