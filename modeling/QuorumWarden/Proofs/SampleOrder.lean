import Mathlib
import QuorumWarden.Proofs.CatalogMajority
import QuorumWarden.Proofs.Outcomes

/-! Standbys that are asked side by side. Whoever answers first, the sample is what asking them one by one in the order of
the catalog would have brought, and it fails only if one that was reached could not tell. -/

namespace QuorumWarden

theorem Conflicts.record_comm (conflicts : Conflicts) (first second : String) :
    (conflicts.record first).record second = (conflicts.record second).record first := by
  wlog less : first < second
  · rcases lt_trichotomy first second with below | rfl | above
    · exact absurd below less
    · rfl
    · exact (this conflicts second first above).symm
  induction conflicts with
  | nil => simp [record, less, less.ne, less.ne', less.not_gt]
  | cons entry rest ih =>
    -- the host that comes first in the order decides where the entry at the front ends up
    obtain ⟨other, count⟩ := entry
    rcases lt_trichotomy first other with below | here | above
    · rcases lt_trichotomy second other with within | here | beyond
      · simp [record, below, below.ne', within, within.ne', less, less.ne, less.ne', less.not_gt]
      · subst here
        simp [record, below, below.ne, below.ne', below.not_gt]
      · simp [record, below, below.ne', beyond.ne, beyond.not_gt, less.ne, less.not_gt]
    · subst here
      simp [record, less.ne, less.not_gt]
    · have beyond := above.trans less
      simp [record, above.ne, above.not_gt, beyond.ne, beyond.not_gt, ih]

namespace Sample

theorem record_comm (sample : Sample) (first second : Report) :
    (sample.record first).record second = (sample.record second).record first := by
  rcases first with _ | _ | first <;> rcases second with _ | _ | second
  case reachable.some.reachable.some =>
    by_cases own : first = sample.hostname <;> by_cases also : second = sample.hostname <;>
      simp [record, own, also, Conflicts.record_comm _ first second]
  case reachable.some.unreachable | reachable.some.reachable.none =>
    by_cases own : first = sample.hostname <;> simp [record, own]
  case unreachable.reachable.some | reachable.none.reachable.some =>
    by_cases own : second = sample.hostname <;> simp [record, own]
  all_goals rfl

instance : RightCommutative record := ⟨record_comm⟩

theorem ofReports_of_perm (host : String) {reports others : List Report} (same : reports.Perm others) :
    ofReports host reports = ofReports host others := same.foldl_eq _

end Sample

/-- The outcomes that are heard before gathering ends. -/
def upToFailure : List (Outcome Report) → List (Outcome Report)
  | [] => []
  | .ok report :: rest => .ok report :: upToFailure rest
  | .error failure :: _ => [.error failure]

/-- What would come after the first failure has no part in the result. -/
theorem mapM_upToFailure (outcomes : List (Outcome Report)) :
    ((upToFailure outcomes).mapM id : Outcome (List Report)) = outcomes.mapM id := by
  induction outcomes with
  | nil => rfl
  | cons outcome rest ih =>
    cases outcome with
    | error failure => rfl
    | ok report => rw [upToFailure, List.mapM_cons, List.mapM_cons, ih]

/-- What an exchange comes to if every call has its answer. -/
def Exchange.result {α : Type} (answers : (made : Call) → made.Reply) : Exchange α → α
  | .done value => value
  | .ask made next => result answers (next (answers made))

/-- Every call has its answer, whenever it is made, and no other. -/
structure Surroundings.Answers {σ : Type} (surroundings : Surroundings σ) (answers : (made : Call) → made.Reply) :
    Prop where
  only : ∀ made before reply after, surroundings.call made before reply after → reply = answers made
  always : ∀ made before, ∃ after, surroundings.call made before (answers made) after

section Gathering

variable {σ : Type} {surroundings : Surroundings σ} {answers : (made : Call) → made.Reply}
  {heard heard' : List (Outcome Report)} {strands rest : List Strand} {before after : σ}

theorem Surroundings.Answers.runs {α : Type} (fixed : surroundings.Answers answers) (exchange : Exchange α) (before : σ) :
    ∃ trace after, Program.Runs surroundings.call exchange before trace (exchange.result answers) after := by
  induction exchange generalizing before with
  | done value => exact ⟨[], before, .refl⟩
  | ask made next ih =>
    obtain ⟨between, answered⟩ := fixed.always made before
    obtain ⟨trace, after, ran⟩ := ih (answers made) between
    exact ⟨_, after, .ask answered ran⟩

/-- The results come in some order, and gathering ends with the first failure among them. -/
theorem Gathers.order (gathers : Gathers surroundings.call heard strands before heard' rest after)
    (fixed : surroundings.Answers answers) (ended : rest = []) :
    ∃ order, order.Perm (strands.map fun strand => strand.rest.result answers) ∧ heard' = heard ++ upToFailure order := by
  induction gathers with
  | refl =>
    subst ended
    exact ⟨[], .refl _, by simp [upToFailure]⟩
  | ask answered _ ih =>
    obtain rfl := fixed.only _ _ _ _ answered
    obtain ⟨order, same, heard⟩ := ih ended
    exact ⟨order, by simpa [Exchange.result] using same, heard⟩
  | @report heard front back wakesAt report _ _ _ _ _ ih =>
    obtain ⟨order, same, told⟩ := ih ended
    refine ⟨.ok report :: order, ?_, by simpa [upToFailure] using told⟩
    simpa [Exchange.result] using (same.cons (.ok report)).trans (by simpa using List.perm_middle.symm)
  | @fail heard front back wakesAt failure state =>
    refine ⟨.error failure :: (front ++ back).map fun strand => strand.rest.result answers, ?_, rfl⟩
    simpa [Exchange.result] using List.perm_middle.symm

/-- Every order is one in which the results can come. -/
theorem Surroundings.Answers.gathers (fixed : surroundings.Answers answers) {order : List Strand}
    (same : order.Perm strands) (heard : List (Outcome Report)) (before : σ) :
    ∃ after, Gathers surroundings.call heard strands before
      (heard ++ upToFailure (order.map fun strand => strand.rest.result answers)) [] after := by
  induction order generalizing strands heard before with
  | nil =>
    obtain rfl := same.nil_eq
    exact ⟨before, by simpa [upToFailure] using Gathers.refl⟩
  | cons strand order ih =>
    obtain ⟨front, back, rfl⟩ := List.append_of_mem (same.mem_iff.mp List.mem_cons_self)
    obtain ⟨trace, between, ran⟩ := fixed.runs strand.rest before
    cases told : strand.rest.result answers with
    | error failure =>
      rw [told] at ran
      refine ⟨between, Gathers.of_steps front ran ?_⟩
      simpa [upToFailure, told] using Gathers.fail
    | ok report =>
      rw [told] at ran
      have left : order.Perm (front ++ back) := (List.perm_cons strand).mp (same.trans List.perm_middle)
      obtain ⟨after, more⟩ := ih left (heard ++ [.ok report]) between
      refine ⟨after, Gathers.of_steps front ran (.report ?_)⟩
      simpa [upToFailure, told] using more

end Gathering

namespace Sample

/-- The standbys' exchanges before anybody has answered. -/
def probes (standbys : List Member) : List Strand := standbys.map fun standby => ⟨some 0, probe standby⟩

variable (answers : (made : Call) → made.Reply)

/-- If it is reached, it can tell whom it takes for primary. -/
def Tells (standby : Member) : Prop :=
  answers (.connect standby.hostname) = .ok () → ∃ primary, answers (.primaryMember standby.hostname) = .ok primary

/-- What a standby that can tell reports. -/
def reportOf (standby : Member) : Report :=
  match answers (.connect standby.hostname) with
  | .error _ => .unreachable
  | .ok _ => .reachable ((answers (.primaryMember standby.hostname)).toOption.bind fun primary =>
    primary.map Member.hostname)

/-- The sample of a node that asks one standby after another. -/
def oneByOne (host : String) (standbys : List Member) : Sample :=
  standbys.foldl (fun sample standby => sample.record (reportOf answers standby)) (alone host)

variable {answers}

theorem result_probe_of_tells {standby : Member} (tells : Tells answers standby) :
    (probe standby).result answers = .ok (reportOf answers standby) := by
  rw [probe_eq, reportOf]
  cases connected : answers (.connect standby.hostname) with
  | error failure => simp [Exchange.result, connected]
  | ok _ =>
    obtain ⟨primary, told⟩ := tells connected
    simp [Exchange.result, connected, told, Except.mapError, Except.map, Except.toOption]

theorem tells_of_result_probe {standby : Member} {report : Report} (told : (probe standby).result answers = .ok report) :
    Tells answers standby := by
  intro connected
  rw [probe_eq] at told
  cases asked : answers (.primaryMember standby.hostname) with
  | ok primary => exact ⟨primary, rfl⟩
  | error failure => simp [Exchange.result, connected, asked, Except.mapError, Except.map] at told

theorem run_take (host : String) (standbys : List Member) :
    (take host standbys).run = .ask (.await (.gather [] (probes standbys))) fun heard =>
      .done ((heard.mapM id : Outcome (List Report)).map (ofReports host)) := by
  refine congrArg (Program.ask _) (funext fun heard => ?_)
  change (liftExcept (heard.mapM id : Outcome (List Report)) >>= fun reports =>
    (return ofReports host reports : Action Sample)).run = _
  generalize (heard.mapM id : Outcome (List Report)) = told
  cases told <;> rfl

variable {σ : Type} {surroundings : Surroundings σ} {host : String} {standbys : List Member} {before after : σ}

theorem runs_take_iff {trace : List (Program.Event Request.Reply)} {outcome : Outcome Sample} :
    Program.Runs surroundings.law (take host standbys).run before trace outcome after ↔
      ∃ heard, Gathers surroundings.call [] (probes standbys) before heard [] after ∧
        trace = [⟨.await (.gather [] (probes standbys)), heard⟩] ∧
        outcome = (heard.mapM id : Outcome (List Report)).map (ofReports host) := by
  rw [run_take]
  constructor
  · intro ran
    cases ran with
    | @ask _ _ _ heard _ _ _ _ answered more =>
      obtain ⟨rfl, ended, rfl⟩ := more.of_done
      cases ended
      exact ⟨heard, answered, rfl, rfl⟩
  · rintro ⟨heard, gathers, rfl, rfl⟩
    exact .ask gathers .refl

theorem result_probe_eq_error {answers : (made : Call) → made.Reply} {standby : Member} {failure : Failure}
    (failed : (probe standby).result answers = .error failure) :
    answers (.connect standby.hostname) = .ok () ∧ ∃ cause, answers (.primaryMember standby.hostname) = .error cause ∧
      failure = cause.within ("query primary view of " ++ standby.hostname) := by
  rw [probe_eq] at failed
  cases connected : answers (.connect standby.hostname) with
  | error _ => simp [Exchange.result, connected] at failed
  | ok _ =>
    cases asked : answers (.primaryMember standby.hostname) with
    | ok primary => simp [Exchange.result, connected, asked, Except.mapError, Except.map] at failed
    | error cause =>
      simp only [Exchange.result, connected, asked, Except.mapError, Except.map] at failed
      exact ⟨rfl, cause, rfl, (Except.error.inj failed).symm⟩

theorem oneByOne_eq (answers : (made : Call) → made.Reply) (host : String) (standbys : List Member) :
    oneByOne answers host standbys = ofReports host (standbys.map (reportOf answers)) := by
  rw [oneByOne, ofReports, List.foldl_map]

variable {answers : (made : Call) → made.Reply} {order : List (Outcome Report)}

theorem mapM_succeeds_iff_tells (same : order.Perm (standbys.map fun standby => (probe standby).result answers)) :
    (∃ reports, (order.mapM id : Outcome (List Report)) = .ok reports) ↔ ∀ standby ∈ standbys, Tells answers standby := by
  rw [mapM_succeeds_iff]
  simp only [same.mem_iff, List.forall_mem_map, id]
  refine forall₂_congr fun standby _ => ?_
  exact ⟨fun ⟨_, told⟩ => tells_of_result_probe told, fun tells => ⟨_, result_probe_of_tells tells⟩⟩

theorem ofReports_of_order (same : order.Perm (standbys.map fun standby => (probe standby).result answers))
    {reports : List Report} (fine : (order.mapM id : Outcome (List Report)) = .ok reports) :
    ofReports host reports = oneByOne answers host standbys := by
  have tells := (mapM_succeeds_iff_tells same).mp ⟨reports, fine⟩
  have told : (standbys.map fun standby => (probe standby).result answers) =
      (standbys.map (reportOf answers)).map .ok := by
    rw [List.map_map]
    exact List.map_congr_left fun standby member => result_probe_of_tells (tells standby member)
  rw [mapM_id_eq_ok_iff.mp fine, told, List.map_perm_map_iff fun _ _ => Except.ok.inj] at same
  rw [oneByOne_eq, ofReports_of_perm host same]

/-- Every order is one in which the standbys can answer, and none of them makes a difference. -/
theorem take_unordered (fixed : surroundings.Answers answers) (host : String) (standbys : List Member) :
    (∀ order : List Member, order.Perm standbys → ∀ before, ∃ outcome after,
      Program.Runs surroundings.law (take host standbys).run before [⟨.await (.gather [] (probes standbys)),
        upToFailure (order.map fun standby => (probe standby).result answers)⟩] outcome after) ∧
    (∀ before heard left between, Gathers surroundings.call [] (probes standbys) before heard left between →
      ∃ heard' after, Gathers surroundings.call heard left between heard' [] after) ∧
    ∀ before trace outcome after, Program.Runs surroundings.law (take host standbys).run before trace outcome after →
      ((∃ sample, outcome = .ok sample) ↔ ∀ standby ∈ standbys, Tells answers standby) ∧
      (∀ sample, outcome = .ok sample → sample = oneByOne answers host standbys ∧
        sample.members = 1 + standbys.length ∧ sample.diagnose = (oneByOne answers host standbys).diagnose) ∧
      ∀ failure, outcome = .error failure → ∃ standby ∈ standbys, answers (.connect standby.hostname) = .ok () ∧
        ∃ cause, answers (.primaryMember standby.hostname) = .error cause ∧
          failure = cause.within ("query primary view of " ++ standby.hostname) := by
  refine ⟨?_, fun _ heard left between _ => ⟨_, fixed.gathers (.refl left) heard between⟩, ?_⟩
  · intro order same before
    have strands : (probes order).Perm (probes standbys) := same.map _
    obtain ⟨after, gathers⟩ := fixed.gathers strands [] before
    refine ⟨_, after, runs_take_iff.mpr ⟨_, gathers, ?_, rfl⟩⟩
    simp [probes, Function.comp_def]
  · intro before trace outcome after ran
    obtain ⟨heard, gathers, rfl, rfl⟩ := runs_take_iff.mp ran
    obtain ⟨order, same, rfl⟩ := gathers.order fixed rfl
    rw [probes, List.map_map] at same
    rw [List.nil_append, mapM_upToFailure, ← mapM_succeeds_iff_tells same]
    cases fine : (order.mapM id : Outcome (List Report)) with
    | ok reports =>
      refine ⟨by simp [Except.map], ?_, nofun⟩
      rintro _ ⟨⟩
      have sample : ofReports host reports = oneByOne answers host standbys := ofReports_of_order same fine
      refine ⟨sample, ?_, congrArg diagnose sample⟩
      rw [sample, oneByOne_eq, (counts_ofReports host _).members, List.length_map]
    | error failure =>
      refine ⟨by simp [Except.map], nofun, ?_⟩
      rintro _ ⟨⟩
      obtain ⟨outcome, member, failed⟩ := exists_of_mapM_eq_error fine
      obtain ⟨standby, listed, told⟩ := List.mem_map.mp (same.mem_iff.mp member)
      exact ⟨standby, listed, result_probe_eq_error (told.trans failed)⟩

def threeStandbys : List Member :=
  [⟨2, "host-2", "default", true, .standby⟩, ⟨3, "host-3", "default", true, .standby⟩,
    ⟨4, "host-4", "default", true, .standby⟩]

/-- One host is not reached, one takes another for primary, and the others know of none. -/
def spoken : (made : Call) → made.Reply
  | .connect host => if host = "host-2" then .error (.external "no route to host") else .ok ()
  | .primaryMember host => .ok (if host = "host-3" then some ⟨9, "host-9", "default", true, .primary⟩ else none)
  | _ => .error (.external "not asked for")

def speaking : Surroundings Unit where
  call made _ reply _ := reply = spoken made
  prompt _ _ _ _ := True

theorem take_unordered_backward : Program.Runs speaking.law (take "host-1" threeStandbys).run ()
    [⟨.await (.gather [] (probes threeStandbys)),
      [.ok (.reachable none), .ok (.reachable (some "host-9")), .ok .unreachable]⟩]
    (.ok ⟨"host-1", 4, 3, 1, 1, [("host-9", 1)]⟩) () := by
  have fixed : speaking.Answers spoken := ⟨fun _ _ _ _ told => told, fun _ _ => ⟨(), rfl⟩⟩
  obtain ⟨possible, _, same⟩ := take_unordered fixed "host-1" threeStandbys
  obtain ⟨outcome, after, ran⟩ := possible _ (List.reverse_perm _) ()
  obtain ⟨succeeds, told, _⟩ := same _ _ _ _ ran
  obtain ⟨sample, rfl⟩ := succeeds.mpr fun _ _ _ => ⟨_, rfl⟩
  obtain ⟨rfl, _⟩ := told sample rfl
  exact ran

end Sample

end QuorumWarden
