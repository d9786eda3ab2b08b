import Mathlib
import QuorumWarden.Proofs.PlayedGround
import QuorumWarden.Proofs.QuorumVerdict
import QuorumWarden.Proofs.RecordedVerdict

/-! How much of the catalog stands behind a verdict. An evaluation counts itself and the standbys, and a majority of
these backs every verdict. It is a majority of all members exactly while a quorum of those that are counted is one. -/

namespace QuorumWarden

open QuorumWarden.Action

/-- What an evaluation takes for a majority: more than half of the standbys and the node itself. -/
def Topology.quorum (topology : Topology) : Nat := (1 + topology.standbys.length) / 2 + 1

/-- Those whom an evaluation of this host counts: itself and the standbys. -/
def Topology.voters (topology : Topology) (host : String) : List Member :=
  topology.members.filter fun member => member.hostname == host || member.isStandby

theorem Topology.standbys_sublist_voters (topology : Topology) (host : String) :
    topology.standbys.Sublist (topology.voters host) :=
  List.monotone_filter_right _ fun member standby => by rw [standby, Bool.or_true]

theorem Topology.row_of_mem {members : List Member} {host : String} (distinct : (members.map Member.hostname).Nodup)
    {row : Member} (registered : row ∈ members) (own : row.hostname = host) :
    (⟨members⟩ : Topology).row host = .ok row := by
  unfold Topology.row Topology.member?
  cases found : members.find? (·.hostname == host) with
  | none => exact absurd (by simp [own]) (List.find?_eq_none.mp found row registered)
  | some first =>
    have same : first.hostname = host := by simpa using List.find?_some found
    rw [List.inj_on_of_nodup_map distinct (List.mem_of_find?_eq_some found) registered (same.trans own.symm)]

namespace ClusterState

/-- Another member that was heard and takes nobody else for primary. -/
def sides (host : String) (heard : List (String × Option String)) (member : Member) : Bool :=
  member.hostname != host && (heard.contains (member.hostname, none) || heard.contains (member.hostname, some host))

def names (other : String) (heard : List (String × Option String)) (member : Member) : Bool :=
  heard.contains (member.hostname, some other)

/-- More than half of these members carry the diagnosis, as far as the record shows. -/
structure Backed (host : String) (members : List Member) (deeds : List Deed) (diagnosis : Diagnosis) : Prop where
  confirmed : diagnosis.verdict = .confirmed → members.length < 2 * (1 + members.countP (sides host (views deeds)))
  discovered : diagnosis.verdict = .discoveredOther →
    members.length < 2 * members.countP (names diagnosis.primary (views deeds))

/-- A diagnosis that an evaluation returns is borne out by its record. -/
theorem judged_of_evaluate {host : String} {ground : Ground} {diagnosis : Diagnosis} {after : Recorded Ground}
    {trace : List (Program.Event Request.Reply)}
    (ran : Program.Runs Ground.openPorts.recorded.law (evaluate host).run ⟨ground, []⟩ trace (.ok (some diagnosis)) after) :
    ∃ members told, Judged host after.deeds diagnosis members told := by
  rcases evaluate_ends ran with ⟨_, undecided⟩ | ⟨found, between, _, second, _, _, ⟨members, told, judged⟩, responded⟩
  · exact absurd rfl (undecided diagnosis)
  · cases returns_respond ⟨second, responded⟩
    exact ⟨members, told, judged.mono (Surroundings.steps_grow responded)⟩

section Majority

variable {host : String} {members counted : List Member} {deeds : List Deed} {diagnosis : Diagnosis}
  {told : List (Member × Report)}

theorem hostname_ne_of_standby (distinct : (members.map Member.hostname).Nodup) {row : Member} (registered : row ∈ members)
    (own : row.hostname = host) (primary : row.role = .primary) {standby : Member}
    (member : standby ∈ (⟨members⟩ : Topology).standbys) : standby.hostname ≠ host := by
  intro same
  obtain ⟨inside, role⟩ := List.mem_filter.mp member
  cases List.inj_on_of_nodup_map distinct inside registered (same.trans own.symm)
  simp [Member.isStandby, primary] at role

theorem countP_told_le (standbys : (told.map Prod.fst).Perm (Topology.standbys ⟨members⟩))
    (covered : (Topology.standbys ⟨members⟩).Sublist counted) {kind : Report → Bool}
    {counts : Member → Bool} (carries : ∀ pair ∈ told, kind pair.2 = true → counts pair.1 = true) :
    (told.map Prod.snd).countP kind ≤ counted.countP counts := by
  calc (told.map Prod.snd).countP kind = told.countP (kind ∘ Prod.snd) := List.countP_map
    _ ≤ told.countP (counts ∘ Prod.fst) := List.countP_mono_left carries
    _ = (told.map Prod.fst).countP counts := List.countP_map.symm
    _ = (Topology.standbys ⟨members⟩).countP counts := standbys.countP_eq counts
    _ ≤ counted.countP counts := covered.countP_le

theorem majority_eq_quorum (standbys : (told.map Prod.fst).Perm (Topology.standbys ⟨members⟩)) :
    Sample.majority (told.map Prod.snd) = (⟨members⟩ : Topology).quorum := by
  have length := standbys.length_eq
  rw [List.length_map] at length
  rw [Sample.majority, Topology.quorum, List.length_map, length]

theorem quorum_le_sides (distinct : (members.map Member.hostname).Nodup)
    (covered : (Topology.standbys ⟨members⟩).Sublist counted) (judged : Judged host deeds diagnosis members told)
    (confirmed : diagnosis.verdict = .confirmed) :
    (⟨members⟩ : Topology).quorum ≤ 1 + counted.countP (sides host (views deeds)) := by
  have verdict : (Sample.ofReports host (told.map Prod.snd)).diagnose = ⟨.confirmed, diagnosis.primary⟩ := by
    rw [← judged.diagnosis, ← confirmed]
  obtain ⟨_, unanimous, enough⟩ := Sample.diagnose_eq_confirmed_iff.mp verdict
  have agrees : ∀ pair ∈ told, pair.2.isReachable = true → sides host (views deeds) pair.1 = true := by
    intro pair member reachable
    have standby : pair.1 ∈ (⟨members⟩ : Topology).standbys :=
      judged.standbys.mem_iff.mp (List.mem_map_of_mem member)
    obtain ⟨row, registered, own, primary⟩ := judged.own
    have other := hostname_ne_of_standby distinct registered own primary standby
    have loyal : ¬pair.2.contradicts host := List.countP_eq_zero.mp unanimous _ (List.mem_map_of_mem member)
    have backed := judged.backed pair member
    cases report : pair.2 with
    | unreachable => simp [report, Report.isReachable] at reachable
    | reachable named =>
      have heard := backed named report
      cases named with
      | none => simp [sides, other, heard]
      | some named =>
        have same : named = host := by simpa [report, Report.contradicts] using loyal
        simp [sides, other, same ▸ heard]
  rw [majority_eq_quorum judged.standbys] at enough
  have few := countP_told_le judged.standbys covered agrees
  omega

theorem quorum_le_names (covered : (Topology.standbys ⟨members⟩).Sublist counted)
    (judged : Judged host deeds diagnosis members told) (discovered : diagnosis.verdict = .discoveredOther) :
    (⟨members⟩ : Topology).quorum ≤ counted.countP (names diagnosis.primary (views deeds)) := by
  have verdict : (Sample.ofReports host (told.map Prod.snd)).diagnose = ⟨.discoveredOther, diagnosis.primary⟩ := by
    rw [← judged.diagnosis, ← discovered]
  obtain ⟨_, enough⟩ := Sample.diagnose_eq_discovered_iff.mp verdict
  have told_so : ∀ pair ∈ told, (pair.2 == .reachable (some diagnosis.primary)) = true →
      names diagnosis.primary (views deeds) pair.1 = true := by
    intro pair member same
    have backed := judged.backed pair member _ (beq_iff_eq.mp same)
    simpa [names] using backed
  rw [majority_eq_quorum judged.standbys] at enough
  exact enough.trans (countP_told_le judged.standbys covered told_so)

/-- More than half of those who cover the standbys and are outnumbered by two quorums back the diagnosis. -/
theorem backed_of_quorum (distinct : (members.map Member.hostname).Nodup)
    (covered : (Topology.standbys ⟨members⟩).Sublist counted) (judged : Judged host deeds diagnosis members told)
    (enough : counted.length < 2 * (⟨members⟩ : Topology).quorum) : Backed host counted deeds diagnosis := by
  constructor
  · intro confirmed
    have sided := quorum_le_sides distinct covered judged confirmed
    omega
  · intro discovered
    have named := quorum_le_names covered judged discovered
    omega

/-- The node votes beside the standbys, but as a primary it is none of them. -/
theorem length_voters (distinct : (members.map Member.hostname).Nodup) {row : Member} (registered : row ∈ members)
    (own : row.hostname = host) (primary : row.role = .primary) :
    ((⟨members⟩ : Topology).voters host).length = 1 + (⟨members⟩ : Topology).standbys.length := by
  have apart : ∀ member ∈ members, member.isStandby = true → (member.hostname == host) = false := by
    intro member inside standby
    have other := hostname_ne_of_standby distinct registered own primary (List.mem_filter.mpr ⟨inside, standby⟩)
    exact beq_false_of_ne other
  have itself : members.countP (·.hostname == host) = 1 := by
    have named : members.countP (·.hostname == host) = (members.map Member.hostname).count host := by
      rw [List.count, List.countP_map]
      rfl
    rw [named]
    exact List.count_eq_one_of_mem distinct (own ▸ List.mem_map_of_mem registered)
  have beside : ((⟨members⟩ : Topology).voters host).countP (·.hostname == host) =
      members.countP (·.hostname == host) := by
    rw [Topology.voters, List.countP_filter]
    exact List.countP_congr fun member _ => by simp +contextual
  have others : ((⟨members⟩ : Topology).voters host).countP (fun member => decide ¬(member.hostname == host) = true) =
      members.countP Member.isStandby := by
    rw [Topology.voters, List.countP_filter]
    refine List.countP_congr fun member inside => ?_
    cases standby : member.isStandby with
    | false => simp
    | true => simp [apart member inside standby]
  rw [List.length_eq_countP_add_countP (·.hostname == host), beside, others, itself, List.countP_eq_length_filter]
  rfl

end Majority

theorem probe_unreached (standby : Member) (before : Recorded Ground) :
    ∃ trace, Program.Runs Ground.openPorts.recorded.call (Sample.probe standby) before trace (.ok .unreachable)
      (before.note (.call (.connect standby.hostname) (.error .cancelled))) := by
  rw [Sample.probe_eq]
  exact ⟨_, .ask (Ground.openPorts_call _ _ (.error .cancelled)) .refl⟩

theorem probe_answered (standby : Member) (before : Recorded Ground) :
    ∃ trace, Program.Runs Ground.openPorts.recorded.call (Sample.probe standby) before trace (.ok (.reachable none))
      ((before.note (.call (.connect standby.hostname) (.ok ()))).note
        (.call (.primaryMember standby.hostname) (.ok none))) := by
  rw [Sample.probe_eq]
  exact ⟨_, .ask (Ground.openPorts_call _ _ (.ok ())) (.ask (Ground.openPorts_call _ _ (.ok none)) .refl)⟩

private def word (answers : Bool) : Report := if answers then .reachable none else .unreachable

/-- Standbys that answer without naming anybody, among others that do not answer. -/
theorem gathers_polled (polled : List (Member × Bool)) (heard : List (Outcome Report)) (before : Recorded Ground) :
    ∃ after : Recorded Ground, after.state = before.state ∧
      views after.deeds = views before.deeds ++ (polled.filter Prod.snd).map (fun pair => (pair.1.hostname, none)) ∧
      Gathers Ground.openPorts.recorded.call heard
        ((polled.map Prod.fst).map fun standby => ⟨some 0, Sample.probe standby⟩) before
        (heard ++ (polled.map (word ·.2)).map .ok) [] after := by
  -- served from the front, so that the reports come in the order of the standbys
  induction polled generalizing heard before with
  | nil => exact ⟨before, rfl, by simp, by simpa using Gathers.refl⟩
  | cons pair polled ih =>
    obtain ⟨standby, answers⟩ := pair
    cases answers with
    | false =>
      obtain ⟨trace, unreached⟩ := probe_unreached standby before
      obtain ⟨after, same, viewed, more⟩ := ih (heard ++ [.ok .unreachable]) (before.note _)
      refine ⟨after, same, ?_, Gathers.of_steps [] unreached (.report (by simpa [word] using more))⟩
      rw [viewed, views_note, List.append_assoc]
      rfl
    | true =>
      obtain ⟨trace, answered⟩ := probe_answered standby before
      obtain ⟨after, same, viewed, more⟩ := ih (heard ++ [.ok (.reachable none)]) ((before.note _).note _)
      refine ⟨after, same, ?_, Gathers.of_steps [] answered (.report (by simpa [word] using more))⟩
      rw [viewed, views_note, views_note, List.append_assoc, List.append_assoc]
      rfl

theorem runs_take {σ : Type} {surroundings : Surroundings σ} {host : String} {standbys : List Member}
    {reports : List Report} {before after : σ}
    (gathers : Gathers surroundings.call [] (standbys.map fun standby => ⟨some 0, Sample.probe standby⟩) before
      (reports.map .ok) [] after) :
    Program.Runs surroundings.law (Sample.take host standbys).run before
      [⟨.await (.gather [] (standbys.map fun standby => ⟨some 0, Sample.probe standby⟩)), reports.map .ok⟩]
      (.ok (Sample.ofReports host reports)) after := by
  have reported : Program.Runs surroundings.law (do
      let told ← liftExcept ((reports.map .ok).mapM id : Outcome (List Report))
      return Sample.ofReports host told : Action Sample).run after [] (.ok (Sample.ofReports host reports)) after := by
    rw [Sample.mapM_id_eq_ok_iff.mpr rfl]
    exact .refl
  exact .ask gathers reported

theorem runs_polled (host : String) (polled : List (Member × Bool)) (before : Recorded Ground) :
    ∃ trace after, Program.Runs Ground.openPorts.recorded.law (guarded (Sample.take host (polled.map Prod.fst))).run
        before trace (.ok (Sample.ofReports host (polled.map (word ·.2)))) after ∧ after.state = before.state ∧
      views after.deeds = views before.deeds ++ (polled.filter Prod.snd).map (fun pair => (pair.1.hostname, none)) := by
  have looked : Ground.openPorts.recorded.prompt .stopRequested before false (before.note _) := ⟨rfl, rfl⟩
  obtain ⟨after, same, viewed, gathers⟩ := gathers_polled polled [] (before.note (.prompt .stopRequested false))
  obtain ⟨trace, ran⟩ := runs_guarded looked (runs_take gathers) (by simp [Program.Event.stops])
  refine ⟨trace, after, ran, same, ?_⟩
  rw [viewed, views_note, List.append_assoc]
  rfl

theorem runs_judge {σ : Type} {law : Law Request Request.Reply σ} {host : String} {members : List Member} {row : Member}
    (found : (⟨members⟩ : Topology).row host = .ok row) (primary : row.isPrimary = true) {sample : Sample}
    {before between after : σ} {first second : List (Program.Event Request.Reply)}
    (surveyed : Program.Runs law (guarded (Node.survey host)).run before first (.ok (⟨host⟩, ⟨members⟩)) between)
    (taken : Program.Runs law (guarded (Sample.take host (⟨members⟩ : Topology).standbys)).run between second
      (.ok sample) after) :
    ∃ trace, Program.Runs law (judge host).run before trace (.ok (some (⟨host⟩, sample.diagnose))) after := by
  have sampled : Program.Runs law (if row.isPrimary then
      guarded (Sample.take host (⟨members⟩ : Topology).standbys) >>= fun sample => pure (some (⟨host⟩, sample.diagnose))
      else pure none : Action (Option (Session × Diagnosis))).run between (second ++ [])
      (.ok (some (⟨host⟩, sample.diagnose))) after := by
    rw [if_pos primary]
    exact runs_bind taken .refl
  refine ⟨first ++ (second ++ []), runs_bind surveyed ?_⟩
  simp only [found]
  exact sampled

theorem runs_confirmed (host : String) (session : Session) (primary : String) {before : Recorded Ground}
    (unlocked : before.state.markers.zombieLock = none) :
    ∃ trace, Program.Runs Ground.openPorts.recorded.law (respond host (some (session, ⟨.confirmed, primary⟩))).run
      before trace (.ok (some ⟨.confirmed, primary⟩)) ((before.note (.prompt (.count .diagnosesConfirmed) ())).note
        (.prompt (.readMarker .zombieLock) (.ok none))) := by
  have counted : Ground.openPorts.recorded.prompt (.count .diagnosesConfirmed) before () (before.note _) := ⟨rfl, rfl⟩
  have read : Ground.openPorts.recorded.prompt (.readMarker .zombieLock)
      (before.note (.prompt (.count .diagnosesConfirmed) ())) (.ok none)
      ((before.note _).note _) := ⟨Ground.prompt_held unlocked, rfl⟩
  exact ⟨_, .ask counted (.ask read .refl)⟩

theorem confirmed_of_words (host : String) {members : List Member} {polled : List (Member × Bool)}
    (standbys : polled.map Prod.fst = (⟨members⟩ : Topology).standbys)
    (enough : (⟨members⟩ : Topology).quorum ≤ 1 + polled.countP Prod.snd) :
    (Sample.ofReports host (polled.map (word ·.2))).diagnose = ⟨.confirmed, host⟩ := by
  apply Sample.diagnose_eq_confirmed_iff.mpr
  have unanimous : ∀ report ∈ polled.map (word ·.2), ¬report.contradicts host := by
    intro report member
    obtain ⟨pair, _, rfl⟩ := List.mem_map.mp member
    cases answers : pair.2 <;> simp [word, Report.contradicts]
  have reached : (polled.map (word ·.2)).countP Report.isReachable = polled.countP Prod.snd := by
    rw [List.countP_map]
    refine List.countP_congr fun pair _ => ?_
    cases answers : pair.2 <;> simp [word, answers, Report.isReachable]
  have length := congrArg List.length standbys
  rw [List.length_map] at length
  refine ⟨rfl, List.countP_eq_zero.mpr unanimous, ?_⟩
  rw [reached, Sample.majority, List.length_map, length]
  exact enough

/-- A primary without a zombie lock is confirmed by as many silent voices as its own quorum takes. -/
theorem confirmed_by_polled {host : String} {members : List Member} {row : Member} {polled : List (Member × Bool)}
    (found : (⟨members⟩ : Topology).row host = .ok row) (primary : row.isPrimary = true)
    (standbys : polled.map Prod.fst = (⟨members⟩ : Topology).standbys)
    (enough : (⟨members⟩ : Topology).quorum ≤ 1 + polled.countP Prod.snd) :
    ∃ trace after, Program.Runs Ground.openPorts.recorded.law (evaluate host).run ⟨{}, []⟩ trace
        (.ok (some ⟨.confirmed, host⟩)) after ∧ surveyed after.deeds = some members ∧
      views after.deeds = (polled.filter Prod.snd).map (fun pair => (pair.1.hostname, none)) := by
  have looked : Ground.openPorts.recorded.prompt .stopRequested ⟨{}, []⟩ false (Recorded.note ⟨{}, []⟩ _) := ⟨rfl, rfl⟩
  have dialled := Ground.openPorts_call (.connect host) (Recorded.note ⟨{}, []⟩ (.prompt .stopRequested false)) (.ok ())
  have listed := Ground.openPorts_call (.listMembers host) (Recorded.note (Recorded.note ⟨{}, []⟩
    (.prompt .stopRequested false)) (.call (.connect host) (.ok ()))) (.ok members)
  obtain ⟨_, survey⟩ := Node.runs_survey looked dialled listed
  obtain ⟨_, between, taken, same, viewed⟩ := runs_polled host polled (Recorded.note _ _)
  have grown := Surroundings.steps_grow taken
  rw [standbys] at taken
  obtain ⟨_, judged⟩ := runs_judge found primary survey taken
  rw [confirmed_of_words host standbys enough] at judged
  obtain ⟨_, responded⟩ := runs_confirmed host ⟨host⟩ host (congrArg (·.markers.zombieLock) same)
  have listed : surveyed between.deeds = some members := surveyed_mono rfl grown
  refine ⟨_, _, by rw [evaluate_eq]; exact runs_bind judged responded, ?_, ?_⟩
  · exact surveyed_mono listed (Surroundings.steps_grow responded)
  · rw [views_note, views_note, viewed, List.append_assoc]
    exact List.append_nil _

/-- No more of the standbys answer than a quorum takes beside the node itself. -/
private def barely (standbys : List Member) : List (Member × Bool) :=
  (standbys.take ((1 + standbys.length) / 2)).map (·, true) ++ (standbys.drop ((1 + standbys.length) / 2)).map (·, false)

private theorem barely_asked (standbys : List Member) : (barely standbys).map Prod.fst = standbys := by
  rw [barely, List.map_append, List.map_map, List.map_map]
  simp [Function.comp_def]

private theorem quorum_barely (members : List Member) :
    (⟨members⟩ : Topology).quorum = 1 + (barely (⟨members⟩ : Topology).standbys).countP Prod.snd := by
  rw [Topology.quorum, barely, List.countP_append, List.countP_map, List.countP_map]
  simp [Function.comp_def]
  omega

/-- Members with hostnames of their own cannot outnumber the voices they are counted by. -/
theorem countP_sides_le {host : String} {members : List Member} (distinct : (members.map Member.hostname).Nodup)
    {voices : List (String × Option String)} :
    members.countP (sides host voices) ≤ voices.length := by
  have named : (members.filter (sides host voices)).map Member.hostname ⊆ voices.map Prod.fst := by
    intro hostname member
    obtain ⟨side, counted, rfl⟩ := List.mem_map.mp member
    have heard : side.hostname ≠ host ∧ ((side.hostname, none) ∈ voices ∨ (side.hostname, some host) ∈ voices) := by
      simpa [sides] using (List.mem_filter.mp counted).2
    rcases heard.2 with heard | heard
    · exact List.mem_map_of_mem heard
    · exact List.mem_map_of_mem heard
  have once : ((members.filter (sides host voices)).map Member.hostname).Nodup :=
    distinct.sublist (List.filter_sublist.map _)
  have bound := (List.subperm_of_subset once named).length_le
  rwa [List.length_map, List.length_map, ← List.countP_eq_length_filter] at bound

/-- Among members with hostnames of their own, an evaluation has a majority of all members behind it
exactly while the quorum of those it counts is one, or the host is no primary and it has no verdict. -/
theorem verdict_backed_iff {host : String} {members : List Member} (distinct : (members.map Member.hostname).Nodup) :
    (∀ ground trace diagnosis after,
      Program.Runs Ground.openPorts.recorded.law (evaluate host).run ⟨ground, []⟩ trace (.ok (some diagnosis)) after →
      surveyed after.deeds = some members → Backed host members after.deeds diagnosis) ↔
    ((∃ row ∈ members, row.hostname = host ∧ row.role = .primary) →
      members.length < 2 * (⟨members⟩ : Topology).quorum) := by
  constructor
  · intro backed own
    obtain ⟨row, registered, own, primary⟩ := own
    have found : (⟨members⟩ : Topology).row host = .ok row := Topology.row_of_mem distinct registered own
    -- barely a quorum answers, so no more than a quorum can stand behind the verdict
    obtain ⟨trace, after, ran, listed, viewed⟩ := confirmed_by_polled found (by simp [Member.isPrimary, primary])
      (barely_asked _) (quorum_barely members).le
    have majority := (backed _ _ _ _ ran listed).confirmed rfl
    have bound : members.countP (sides host (views after.deeds)) ≤ (views after.deeds).length := countP_sides_le distinct
    rw [viewed, List.length_map, ← List.countP_eq_length_filter] at bound
    rw [viewed] at majority
    have quorum := quorum_barely members
    omega
  · intro enough ground trace diagnosis after ran listed
    obtain ⟨members', told, judged⟩ := judged_of_evaluate ran
    obtain rfl : members' = members := Option.some.inj (judged.surveyed.symm.trans listed)
    exact backed_of_quorum distinct List.filter_sublist judged (enough judged.own)

/-- Among members with hostnames of their own, more than half of the node and the standbys are behind every verdict of
an evaluation. More than half of all members are exactly while a quorum of those that are counted is that much, or the
host is no primary and has no verdict. -/
theorem verdict_backed_by_voters {host : String} {members : List Member}
    (distinct : (members.map Member.hostname).Nodup) :
    (∀ ground trace diagnosis after,
      Program.Runs Ground.openPorts.recorded.law (evaluate host).run ⟨ground, []⟩ trace (.ok (some diagnosis)) after →
      surveyed after.deeds = some members → Backed host ((⟨members⟩ : Topology).voters host) after.deeds diagnosis) ∧
    ((∀ ground trace diagnosis after,
      Program.Runs Ground.openPorts.recorded.law (evaluate host).run ⟨ground, []⟩ trace (.ok (some diagnosis)) after →
      surveyed after.deeds = some members → Backed host members after.deeds diagnosis) ↔
    ((∃ row ∈ members, row.hostname = host ∧ row.role = .primary) →
      members.length < 2 * (⟨members⟩ : Topology).quorum)) := by
  refine ⟨fun ground trace diagnosis after ran listed => ?_, verdict_backed_iff distinct⟩
  obtain ⟨members', told, judged⟩ := judged_of_evaluate ran
  obtain rfl : members' = members := Option.some.inj (judged.surveyed.symm.trans listed)
  obtain ⟨row, registered, own, primary⟩ := judged.own
  refine backed_of_quorum distinct (Topology.standbys_sublist_voters _ host) judged ?_
  rw [length_voters distinct registered own primary, Topology.quorum]
  omega

private def trio (second third : Role) : List Member :=
  [⟨1, "host-1", "default", true, .primary⟩, ⟨2, "host-2", "default", true, second⟩,
    ⟨3, "host-3", "default", true, third⟩]

private theorem trio_distinct (second third : Role) : ((trio second third).map Member.hostname).Nodup := by
  simp [trio]

/-- Two standbys, one of which answers. -/
theorem follower_backs_primary : ∃ (members : List Member) (trace : List (Program.Event Request.Reply))
    (after : Recorded Ground), (members.map Member.hostname).Nodup ∧
    Program.Runs Ground.openPorts.recorded.law (evaluate "host-1").run ⟨{}, []⟩ trace
      (.ok (some ⟨.confirmed, "host-1"⟩)) after ∧ surveyed after.deeds = some members ∧
    Backed "host-1" ((⟨members⟩ : Topology).voters "host-1") after.deeds ⟨.confirmed, "host-1"⟩ := by
  have distinct := trio_distinct .standby .standby
  have found : (⟨trio .standby .standby⟩ : Topology).row "host-1" = .ok ⟨1, "host-1", "default", true, .primary⟩ := rfl
  obtain ⟨trace, after, ran, listed, _⟩ := confirmed_by_polled found rfl (barely_asked _) (quorum_barely _).le
  exact ⟨_, trace, after, distinct, ran, listed, (verdict_backed_by_voters distinct).1 _ _ _ _ ran listed⟩

/-- Another primary and a member of unknown role: nobody is asked, and one of three confirms itself. -/
theorem rival_primary_confirmed_alone : ∃ (members : List Member) (trace : List (Program.Event Request.Reply))
    (after : Recorded Ground), (members.map Member.hostname).Nodup ∧
    Program.Runs Ground.openPorts.recorded.law (evaluate "host-1").run ⟨{}, []⟩ trace
      (.ok (some ⟨.confirmed, "host-1"⟩)) after ∧ surveyed after.deeds = some members ∧
    ¬Backed "host-1" members after.deeds ⟨.confirmed, "host-1"⟩ := by
  have found : (⟨trio .primary .unknown⟩ : Topology).row "host-1" = .ok ⟨1, "host-1", "default", true, .primary⟩ := rfl
  obtain ⟨trace, after, ran, listed, viewed⟩ := confirmed_by_polled found rfl (barely_asked _) (quorum_barely _).le
  have silent : views after.deeds = [] := viewed
  refine ⟨_, trace, after, trio_distinct _ _, ran, listed, fun backed => ?_⟩
  have majority := backed.confirmed rfl
  have bound : (trio .primary .unknown).countP (sides "host-1" (views after.deeds)) ≤ (views after.deeds).length :=
    countP_sides_le (trio_distinct _ _)
  rw [silent] at majority bound
  have three : (trio .primary .unknown).length = 3 := rfl
  simp only [List.length_nil] at bound
  omega

end ClusterState

end QuorumWarden
