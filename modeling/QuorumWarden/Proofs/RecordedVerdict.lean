import QuorumWarden.Proofs.ActionReturns
import QuorumWarden.Proofs.Evaluations
import QuorumWarden.Proofs.Outcomes
import QuorumWarden.Proofs.RecordedRuns

/-! What is on record when an evaluation comes to its verdict, whatever its ports answer: one
listing of the catalog, one report from each of its standbys, and nothing that changes anything. -/

namespace QuorumWarden

open QuorumWarden.Action

namespace Deed

/-- Looking around in the cluster. Nothing else is done before a verdict. -/
def Surveys : Deed → Prop
  | .prompt asked _ => asked = .stopRequested
  | .call (.connect _) _ | .call (.listMembers _) _ | .call (.primaryMember _) _ => True
  | .call _ _ => False

def catalog? : Deed → Option (List Member)
  | .call (.listMembers _) (.ok members) => some members
  | _ => none

/-- Who was heard, and whom it takes for primary. -/
def view? : Deed → Option (String × Option String)
  | .call (.primaryMember host) (.ok primary) => some (host, primary.map Member.hostname)
  | _ => none

end Deed

/-- The first catalog on record. In an evaluation that is the one it samples by. -/
def surveyed (deeds : List Deed) : Option (List Member) := deeds.findSome? Deed.catalog?

def views (deeds : List Deed) : List (String × Option String) := deeds.filterMap Deed.view?

theorem surveyed_mono {deeds more : List Deed} {members : List Member} (found : surveyed deeds = some members)
    (grown : deeds <+: more) : surveyed more = some members := by
  obtain ⟨added, rfl⟩ := grown
  simp only [surveyed] at found ⊢
  simp [List.findSome?_append, found]

theorem views_mono {deeds more : List Deed} (grown : deeds <+: more) : views deeds ⊆ views more := by
  obtain ⟨added, rfl⟩ := grown
  simp [views]

theorem views_note (before : Recorded Ground) (deed : Deed) :
    views (before.note deed).deeds = views before.deeds ++ deed.view?.toList := by
  cases viewed : deed.view? <;> simp [views, Recorded.note, viewed]

namespace Sample

theorem probe_eq (standby : Member) :
    probe standby = .ask (.connect standby.hostname) fun
      | .error _ => .done (.ok .unreachable)
      | .ok _ => .ask (.primaryMember standby.hostname) fun asked =>
        .done ((asked.mapError (Failure.within ("query primary view of " ++ standby.hostname))).map
          fun primary => .reachable (primary.map Member.hostname)) := by
  refine congrArg (Program.ask _) (funext fun reply => ?_)
  cases reply with
  | error failure => rfl
  | ok session => rfl

/-- An answered probe tells that nobody was reached, or hands on what it was told. -/
theorem probe_report {standby : Member} {trace : List (Program.Event Call.Reply)} {report : Report}
    (ran : Program.Runs (fun _ _ _ _ => True) (probe standby) () trace (.ok report) ()) :
    report = .unreachable ∨ ∃ primary : Option Member, report = .reachable (primary.map Member.hostname) ∧
      (⟨.primaryMember standby.hostname, .ok primary⟩ : Program.Event Call.Reply) ∈ trace := by
  rw [probe_eq] at ran
  cases ran with
  | @ask _ _ _ reply _ _ _ _ _ more =>
    cases reply with
    | error failure =>
      obtain ⟨_, ended, _⟩ := more.of_done
      cases ended
      exact Or.inl rfl
    | ok session =>
      cases more with
      | @ask _ _ _ asked _ _ _ _ _ more =>
        obtain ⟨_, ended, _⟩ := more.of_done
        cases asked with
        | error failure => cases ended
        | ok primary =>
          cases ended
          exact Or.inr ⟨primary, rfl, by simp⟩

theorem mapM_id_eq_ok_iff {heard : List (Outcome Report)} {reports : List Report} :
    (heard.mapM id : Outcome (List Report)) = .ok reports ↔ heard = reports.map .ok := by
  rw [mapM_eq_ok_iff, ← List.forall₂_eq_eq_eq, List.forall₂_map_right_iff]
  rfl

end Sample

theorem Topology.mem_of_row {topology : Topology} {host : String} {row : Member} (found : topology.row host = .ok row) :
    row ∈ topology.members ∧ row.hostname = host := by
  unfold Topology.row at found
  split at found
  next member? =>
    cases found
    exact ⟨List.mem_of_find?_eq_some member?, by simpa using List.find?_some member?⟩
  next => cases found

namespace ClusterState

/-- The record bears out a diagnosis: it lists the members, a primary has this hostname, and each
of the standbys told what the diagnosis was made from. -/
structure Judged (host : String) (deeds : List Deed) (diagnosis : Diagnosis) (members : List Member)
    (told : List (Member × Report)) : Prop where
  surveyed : surveyed deeds = some members
  own : ∃ row ∈ members, row.hostname = host ∧ row.role = .primary
  standbys : (told.map Prod.fst).Perm (Topology.standbys ⟨members⟩)
  diagnosis : diagnosis = (Sample.ofReports host (told.map Prod.snd)).diagnose
  backed : ∀ pair ∈ told, ∀ named, pair.2 = .reachable named → (pair.1.hostname, named) ∈ views deeds

theorem Judged.mono {host : String} {deeds more : List Deed} {diagnosis : Diagnosis} {members : List Member}
    {told : List (Member × Report)} (judged : Judged host deeds diagnosis members told) (grown : deeds <+: more) :
    Judged host more diagnosis members told :=
  ⟨surveyed_mono judged.surveyed grown, judged.own, judged.standbys, judged.diagnosis,
    fun pair member named same => views_mono grown (judged.backed pair member named same)⟩

variable {markers : Markers} {before : Recorded Ground}

def Unwritten (markers : Markers) (now : Recorded Ground) : Prop :=
  now.state.markers = markers ∧ ∀ deed ∈ now.deeds, deed.Surveys

/-- Looking at the stop, or a wait in which nothing is written. -/
def Surveying (markers : Markers) (request : Request) (now : Recorded Ground) : Prop :=
  Unwritten markers now ∧
    match request with
    | .prompt asked => asked = .stopRequested
    | .await wait | .awaitOrStop wait => ∀ after, Ground.openPorts.recorded.part wait now after → Unwritten markers after

theorem Unwritten.call {made : Call} {reply : made.Reply} {after : Recorded Ground} (unwritten : Unwritten markers before)
    (answered : Ground.openPorts.recorded.call made before reply after) (surveys : (Deed.call made reply).Surveys) :
    Unwritten markers after := by
  obtain ⟨same, deeds⟩ := answered
  refine ⟨(same : after.state.markers = _).trans unwritten.1, ?_⟩
  rw [deeds]
  exact List.forall_mem_append.mpr ⟨unwritten.2, by simpa using surveys⟩

theorem surveying_call {made : Call} (unwritten : Unwritten markers before)
    (surveys : ∀ reply, (Deed.call made reply).Surveys) : Surveying markers (.await (.call made)) before := by
  refine ⟨unwritten, fun after left => ?_⟩
  rcases left with rfl | ⟨reply, answered⟩
  · exact unwritten
  · exact unwritten.call answered (surveys reply)

theorem holds_surveyingGuarded {α : Type} {good : α → Recorded Ground → Prop} {action : Action α}
    (unwritten : Unwritten markers before)
    (holds : ∀ now : Recorded Ground, Unwritten markers now → now.deeds = before.deeds ++ [.prompt .stopRequested false] →
      Holds Ground.openPorts.recorded.law (Surveying markers) good (fun _ => Unwritten markers) action now) :
    Holds Ground.openPorts.recorded.law (Surveying markers) good (fun _ => Unwritten markers) (guarded action) before := by
  have looked : ∀ stop after, Ground.openPorts.recorded.law (.prompt .stopRequested) before stop after →
      Unwritten markers after := by
    intro stop after answered
    obtain ⟨same, deeds⟩ := answered
    refine ⟨(congrArg Ground.markers (same : after.state = _)).trans unwritten.1, ?_⟩
    rw [deeds]
    exact List.forall_mem_append.mpr ⟨unwritten.2, by simp [Deed.Surveys]⟩
  apply Holds.guarded_entered
  · exact ⟨fun _ _ asked => asked, fun _ _ _ _ answered => answered, fun _ _ after asked left => asked.2 after left⟩
  · exact ⟨unwritten, rfl⟩
  · exact fun after answered => looked true after answered
  · exact fun after answered => holds after (looked false after answered) answered.2

theorem holds_surveyRecorded (host : String) (unwritten : Unwritten markers before) (fresh : surveyed before.deeds = none) :
    Holds Ground.openPorts.recorded.law (Surveying markers)
      (fun found after => Unwritten markers after ∧ found.1 = ⟨host⟩ ∧ surveyed after.deeds = some found.2.members)
      (fun _ => Unwritten markers) (Node.survey host) before := by
  refine Holds.bind (Holds.inContext (Holds.bind (Holds.request (.connect host)
    (surveying_call unwritten fun _ => trivial) ?_ ?_)))
  · intro _ between answered
    have unwritten : Unwritten markers between := unwritten.call answered trivial
    have fresh : surveyed between.deeds = none := by
      rw [answered.2, surveyed, List.findSome?_append, Option.or_eq_none_iff]
      exact ⟨fresh, rfl⟩
    refine Holds.pure (Holds.bind (Holds.inContext (Holds.bind (Holds.request (.listMembers host)
      (surveying_call unwritten fun _ => trivial) ?_ ?_))))
    · intro members after answered
      have listed : surveyed after.deeds = some members := by
        rw [answered.2, surveyed, List.findSome?_append]
        exact (congrArg (Option.or · _) fresh).trans rfl
      exact Holds.pure (Holds.pure ⟨unwritten.call answered trivial, rfl, listed⟩)
    · exact fun _ _ answered => unwritten.call answered trivial
  · exact fun _ _ answered => unwritten.call answered trivial

/-- A strand that does nothing but look around. -/
private def Looks (rest : Exchange (Outcome Report)) : Prop :=
  Program.Holds (fun _ _ _ _ => True) (fun made _ => ∀ reply, (Deed.call made reply).Surveys) (fun _ _ => True) rest ()

private theorem probe_looks (standby : Member) : Looks (Sample.probe standby) := by
  refine ⟨fun _ => trivial, fun reply _ _ => ?_⟩
  cases reply with
  | error failure => trivial
  | ok session =>
    refine ⟨fun _ => trivial, fun reply _ _ => ?_⟩
    cases reply with
    | error failure => trivial
    | ok primary => trivial

theorem gathers_unwritten {heard heard' : List (Outcome Report)} {strands rest : List Strand} {after : Recorded Ground}
    (gathers : Gathers Ground.openPorts.recorded.call heard strands before heard' rest after)
    (unwritten : Unwritten markers before)
    (looks : ∀ strand ∈ strands, Looks strand.rest) : Unwritten markers after := by
  induction gathers with
  | refl => exact unwritten
  | ask answered _ ih =>
    have looking := looks _ (List.mem_append_right _ (List.mem_cons_self ..))
    apply ih (unwritten.call answered (looking.1 _))
    intro strand member
    rcases List.mem_append.mp member with front | back
    · exact looks strand (List.mem_append_left _ front)
    rcases List.mem_cons.mp back with rfl | back
    · exact looking.2 _ () trivial
    · exact looks strand (List.mem_append_right _ (List.mem_cons_of_mem _ back))
  | report _ ih =>
    apply ih unwritten
    intro strand member
    rcases List.mem_append.mp member with front | back
    · exact looks strand (List.mem_append_left _ front)
    · exact looks strand (List.mem_append_right _ (List.mem_cons_of_mem _ back))
  | fail => exact unwritten

theorem told_of_gathers {standbys : List Member} {heard : List (Outcome Report)} {reports : List Report}
    {after : Recorded Ground}
    (gathers : Gathers Ground.openPorts.recorded.call []
      (standbys.map fun standby => (⟨some 0, Sample.probe standby⟩ : Strand)) before heard [] after)
    (fine : heard = reports.map .ok) :
    ∃ told : List (Member × Report), reports = told.map Prod.snd ∧ (told.map Prod.fst).Perm standbys ∧
      ∀ pair ∈ told, ∀ named, pair.2 = .reachable named → (pair.1.hostname, named) ∈ views after.deeds := by
  have strands : (standbys.map fun standby => (standby, (⟨some 0, Sample.probe standby⟩ : Strand))).map Prod.snd =
      standbys.map fun standby => ⟨some 0, Sample.probe standby⟩ := by simp
  have members : (standbys.map fun standby => (standby, (⟨some 0, Sample.probe standby⟩ : Strand))).map Prod.fst =
      standbys := by
    rw [List.map_map]
    exact List.map_id standbys
  have begun : ∀ pair ∈ standbys.map fun standby => (standby, (⟨some 0, Sample.probe standby⟩ : Strand)),
      Exchanged before.deeds (Sample.probe pair.1) pair.2.rest := by
    intro pair member
    obtain ⟨standby, _, rfl⟩ := List.mem_map.mp member
    exact Exchanged.refl
  obtain ⟨told, same, order, exchanged⟩ := gathers.told rfl (by simp [fine]) strands begun
  refine ⟨told, ?_, members ▸ order, ?_⟩
  · have reported : reports.map Except.ok = (told.map Prod.snd).map (@Except.ok Failure Report) := by
      rw [← fine, same, List.map_map]
      rfl
    exact (List.map_inj_right fun _ _ => Except.ok.inj).mp reported
  · intro pair member named reachable
    obtain ⟨trace, ran, noted⟩ := exchanged pair member
    rcases Sample.probe_report ran with unreachable | ⟨primary, report, asked⟩
    · rw [unreachable] at reachable
      cases reachable
    · rw [reachable] at report
      cases report
      exact List.mem_filterMap.mpr ⟨_, noted _ asked, rfl⟩

theorem holds_takeRecorded (host : String) (standbys : List Member) (unwritten : Unwritten markers before) :
    Holds Ground.openPorts.recorded.law (Surveying markers)
      (fun sample after => Unwritten markers after ∧ before.deeds <+: after.deeds ∧
        ∃ told : List (Member × Report), sample = Sample.ofReports host (told.map Prod.snd) ∧
          (told.map Prod.fst).Perm standbys ∧
          ∀ pair ∈ told, ∀ named, pair.2 = .reachable named → (pair.1.hostname, named) ∈ views after.deeds)
      (fun _ => Unwritten markers) (Sample.take host standbys) before := by
  have looks : ∀ strand ∈ standbys.map fun standby => (⟨some 0, Sample.probe standby⟩ : Strand), Looks strand.rest := by
    intro strand member
    obtain ⟨standby, _, rfl⟩ := List.mem_map.mp member
    exact probe_looks standby
  refine Holds.bind (Holds.lift ⟨⟨unwritten, ?_⟩, ?_⟩)
  · intro after left
    obtain ⟨heard, rest, gathers⟩ := left
    exact gathers_unwritten gathers unwritten looks
  · intro heard after gathers
    have kept : Unwritten markers after := gathers_unwritten gathers unwritten looks
    refine Holds.bind (Holds.liftExcept ?_ fun _ _ => kept)
    intro reports fine
    obtain ⟨told, reported, order, backed⟩ := told_of_gathers gathers (Sample.mapM_id_eq_ok_iff.mp fine)
    subst reported
    exact Holds.pure ⟨kept, Surroundings.gathers_grow gathers, told, rfl, order, backed⟩

/-- Up to the verdict nothing is written, and the record bears the verdict out. -/
theorem holds_judgeRecorded (host : String) (unwritten : Unwritten markers before) (fresh : surveyed before.deeds = none) :
    Holds Ground.openPorts.recorded.law (Surveying markers)
      (fun found after => Unwritten markers after ∧ ∀ pair ∈ found, pair.1 = ⟨host⟩ ∧
        ∃ members told, Judged host after.deeds pair.2 members told)
      (fun _ => Unwritten markers) (judge host) before := by
  refine Holds.bind (holds_surveyingGuarded unwritten fun now unwritten deeds =>
    (holds_surveyRecorded host unwritten ?_).imp ?_)
  · rw [deeds, surveyed, List.findSome?_append, Option.or_eq_none_iff]
    exact ⟨fresh, rfl⟩
  · intro found between ended
    obtain ⟨session, topology⟩ := found
    obtain ⟨unwritten, rfl, listed⟩ := ended
    refine Holds.bind (Holds.liftExcept ?_ fun _ _ => unwritten)
    intro row found
    split
    next primary =>
      have own : ∃ row ∈ topology.members, row.hostname = host ∧ row.role = .primary := by
        obtain ⟨registered, named⟩ := Topology.mem_of_row found
        exact ⟨row, registered, named, by simpa [Member.isPrimary] using primary⟩
      refine Holds.bind (holds_surveyingGuarded unwritten fun now unwritten deeds =>
        (holds_takeRecorded host topology.standbys unwritten).imp ?_)
      intro sample after ended
      obtain ⟨unwritten, grown, told, rfl, order, backed⟩ := ended
      have grown : between.deeds <+: after.deeds := (deeds ▸ List.prefix_append _ _ : between.deeds <+: now.deeds).trans grown
      have judged : Judged host after.deeds (Sample.ofReports host (told.map Prod.snd)).diagnose topology.members told :=
        ⟨surveyed_mono listed grown, own, order, rfl, backed⟩
      exact Holds.pure ⟨unwritten, by rintro _ ⟨⟩; exact ⟨rfl, _, told, judged⟩⟩
    next => exact Holds.pure ⟨unwritten, by simp⟩

theorem returns_act {σ : Type} {law : Law Request Request.Reply σ} {host : String} {session : Session}
    {diagnosis : Diagnosis} {found : Option Diagnosis} {before after : σ}
    (returns : Returns law (act host session diagnosis) before found after) : found = some diagnosis := by
  by_cases confirmed : diagnosis.verdict = .confirmed
  · rw [act_confirmed _ _ confirmed] at returns
    obtain ⟨fenced, _, _, onward⟩ := returns_bind_iff.mp returns
    cases fenced with
    | false => exact (returns_pure_iff.mp onward).1
    | true =>
      obtain ⟨_, _, _, ended⟩ := returns_bind_iff.mp onward
      exact (returns_pure_iff.mp ended).1
  · rw [act_suspect _ _ confirmed] at returns
    obtain ⟨_, _, _, onward⟩ := returns_bind_iff.mp returns
    obtain ⟨_, _, _, ended⟩ := returns_bind_iff.mp onward
    exact (returns_pure_iff.mp ended).1

theorem returns_respond {σ : Type} {law : Law Request Request.Reply σ} {host : String} {session : Session}
    {diagnosis : Diagnosis} {found : Option Diagnosis} {before after : σ}
    (returns : Returns law (respond host (some (session, diagnosis))) before found after) : found = some diagnosis := by
  obtain ⟨_, _, _, acted⟩ := returns_bind_iff.mp returns
  exact returns_act acted

/-- Nothing was done but look around, and nothing else was asked for. -/
structure OnlySurveyed (markers : Markers) (trace : List (Program.Event Request.Reply)) (now : Recorded Ground) : Prop where
  unwritten : Unwritten markers now
  asked : ∀ event ∈ trace, ∃ state, Surveying markers event.request state

/-- An evaluation ends without a verdict, or it goes on to act on one that the record bears out. -/
theorem evaluate_ends {host : String} {start : Ground} {trace : List (Program.Event Request.Reply)}
    {outcome : Outcome (Option Diagnosis)} {after : Recorded Ground}
    (ran : Program.Runs Ground.openPorts.recorded.law (evaluate host).run ⟨start, []⟩ trace outcome after) :
    (OnlySurveyed start.markers trace after ∧ ∀ diagnosis, outcome ≠ .ok (some diagnosis)) ∨
      ∃ diagnosis between first second, trace = first ++ second ∧ OnlySurveyed start.markers first between ∧
        (∃ members told, Judged host between.deeds diagnosis members told) ∧
        Program.Runs Ground.openPorts.recorded.law (respond host (some (⟨host⟩, diagnosis))).run between second outcome after := by
  have unwritten : Unwritten start.markers ⟨start, []⟩ := ⟨rfl, by simp⟩
  have judging := (holds_judgeRecorded host unwritten rfl).run
  rw [evaluate_eq] at ran
  rcases runs_of_bind ran with ⟨failure, rfl, judged⟩ | ⟨found, between, first, second, rfl, judged, onward⟩
  · exact Or.inl ⟨⟨judging.steps judged, judging.asked judged⟩, by simp⟩
  obtain ⟨unwritten, pairs⟩ := judging.steps judged
  cases found with
  | none =>
    obtain ⟨rfl, ended, rfl⟩ := Program.Steps.of_done onward
    cases ended
    rw [List.append_nil]
    exact Or.inl ⟨⟨unwritten, judging.asked judged⟩, by simp⟩
  | some pair =>
    obtain ⟨session, diagnosis⟩ := pair
    obtain ⟨rfl, borne⟩ := pairs _ rfl
    exact Or.inr ⟨diagnosis, between, first, second, rfl, ⟨unwritten, judging.asked judged⟩, borne, onward⟩

end ClusterState

end QuorumWarden
