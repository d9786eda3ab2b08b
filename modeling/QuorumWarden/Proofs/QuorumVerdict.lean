import QuorumWarden.Proofs.QuorumTally

/-! The verdict on a sample in terms of the reports heard. Nobody but the host's own followers
confirms it, and a discovered host has a strict majority of all members behind it. -/

namespace QuorumWarden.Sample

/-- The least number that is more than half of the host and all who were asked. -/
def majority (reports : List Report) : Nat := (1 + reports.length) / 2 + 1

private theorem length_lt_majority (reports : List Report) : reports.length < 2 * majority reports - 1 := by
  unfold majority
  omega

theorem quorum_ofReports (host : String) (reports : List Report) :
    (ofReports host reports).quorum = majority reports := by
  rw [quorum, (counts_ofReports host reports).members, majority]

private theorem contradicts_isReachable (host : String) (report : Report)
    (contradicts : report.contradicts host = true) : report.isReachable = true := by
  cases report <;> simp_all [Report.contradicts, Report.isReachable]

theorem agreeing_add_conflicting (host : String) (reports : List Report) :
    (ofReports host reports).agreeing + (ofReports host reports).conflicting = (ofReports host reports).active := by
  have counts := counts_ofReports host reports
  have reached : reports.countP (Report.contradicts host) ≤ reports.countP Report.isReachable :=
    List.countP_mono_left fun report _ => contradicts_isReachable host report
  have active := counts.active
  have split := counts.split
  have conflicting := counts.conflicting
  unfold agreeing
  omega

private theorem active_le_members (host : String) (reports : List Report) :
    (ofReports host reports).active ≤ 1 + reports.length := by
  rw [(counts_ofReports host reports).active]
  exact Nat.add_le_add_left List.countP_le_length 1

theorem count_le_conflicting {host other : String} (different : other ≠ host) (reports : List Report) :
    reports.count (.reachable (some other)) ≤ (ofReports host reports).conflicting := by
  rw [(counts_ofReports host reports).conflicting]
  refine List.countP_mono_left fun report _ same => ?_
  rw [beq_iff_eq.mp same]
  simpa [Report.contradicts] using different

private theorem count_add_count_le {first second : Report} (different : first ≠ second) (reports : List Report) :
    reports.count first + reports.count second ≤ reports.length := by
  induction reports with
  | nil => simp
  | cons report reports ih =>
    simp only [List.count_cons, List.length_cons, beq_iff_eq]
    have once : ¬(report = first ∧ report = second) := fun ⟨same, other⟩ => different (same.symm.trans other)
    split <;> split <;> simp_all <;> omega

theorem majority_unique {reports : List Report} {first second : String}
    (one : majority reports ≤ reports.count (.reachable (some first)))
    (two : majority reports ≤ reports.count (.reachable (some second))) : first = second := by
  by_contra different
  have apart : Report.reachable (some first) ≠ .reachable (some second) := by simpa using different
  have bound := count_add_count_le apart reports
  have half := length_lt_majority reports
  omega

/-- The host that heads the conflicts has as many reports behind it as the map says. -/
theorem top_named {host : String} {reports : List Report} (positive : 0 < (ofReports host reports).conflicts.top.2) :
    (ofReports host reports).conflicts.top.1 ≠ host ∧
      reports.count (.reachable (some (ofReports host reports).conflicts.top.1)) =
        (ofReports host reports).conflicts.top.2 := by
  have counts := counts_ofReports host reports
  have counted := Conflicts.count_of_mem counts.sorted (Conflicts.top_mem positive)
  rw [counts.named] at counted
  split at counted
  · omega
  next different => exact ⟨different, counted⟩

private theorem alone_of_members {host : String} {reports : List Report}
    (single : (ofReports host reports).members = 1) : reports = [] := by
  rw [(counts_ofReports host reports).members] at single
  exact List.eq_nil_of_length_eq_zero (by omega)

theorem diagnose_eq_confirmed_iff {host primary : String} {reports : List Report} :
    (ofReports host reports).diagnose = ⟨.confirmed, primary⟩ ↔
      primary = host ∧ reports.countP (Report.contradicts host) = 0 ∧
        majority reports ≤ 1 + reports.countP Report.isReachable := by
  have counts := counts_ofReports host reports
  have sum := agreeing_add_conflicting host reports
  rw [counts.conflicting, counts.active] at sum
  simp only [diagnose, counts.hostname, counts.active, counts.conflicting, quorum_ofReports]
  split
  next single => simp [alone_of_members single, majority, eq_comm]
  next =>
    split
    next few => exact iff_of_false (by simp) fun ⟨_, _, enough⟩ => by omega
    next =>
      split
      next =>
        split
        next doubted => exact iff_of_false (by simp) fun ⟨_, unanimous, _⟩ => by omega
        next =>
          constructor
          · intro same
            cases same
            exact ⟨rfl, by omega, by omega⟩
          · rintro ⟨rfl, _, _⟩
            rfl
      next outvoted =>
        have doubted : 0 < reports.countP (Report.contradicts host) := by omega
        exact iff_of_false (by split <;> simp) fun ⟨_, unanimous, _⟩ => by omega

theorem diagnose_eq_discovered_iff {host other : String} {reports : List Report} :
    (ofReports host reports).diagnose = ⟨.discoveredOther, other⟩ ↔
      other ≠ host ∧ majority reports ≤ reports.count (.reachable (some other)) := by
  have counts := counts_ofReports host reports
  have sum := agreeing_add_conflicting host reports
  have bound := active_le_members host reports
  have half := length_lt_majority reports
  -- A majority for another host leaves less than a majority to agree with this one.
  have outvotes : other ≠ host → majority reports ≤ reports.count (.reachable (some other)) →
      majority reports ≤ (ofReports host reports).conflicting ∧
        majority reports ≤ (ofReports host reports).conflicts.top.2 := by
    intro different enough
    have top := Conflicts.count_le_top (ofReports host reports).conflicts other
    rw [counts.named, if_neg different] at top
    exact ⟨enough.trans (count_le_conflicting different reports), enough.trans top⟩
  simp only [diagnose, quorum_ofReports]
  split
  next single => exact iff_of_false (by simp) fun ⟨_, enough⟩ => by simp [alone_of_members single, majority] at enough
  next =>
    split
    next few => exact iff_of_false (by simp) fun ⟨different, enough⟩ => by have := outvotes different enough; omega
    next =>
      split
      next =>
        exact iff_of_false (by split <;> simp) fun ⟨different, enough⟩ => by have := outvotes different enough; omega
      next =>
        split
        next enough =>
          have positive : 0 < (ofReports host reports).conflicts.top.2 := lt_of_lt_of_le (by simp [majority]) enough
          obtain ⟨different, named⟩ := top_named positive
          constructor
          · intro same
            cases same
            exact ⟨different, enough.trans_eq named.symm⟩
          · intro ⟨_, also⟩
            rw [majority_unique (enough.trans_eq named.symm) also]
        next short => exact iff_of_false (by simp) fun ⟨different, enough⟩ => short (outvotes different enough).2

end QuorumWarden.Sample
