import QuorumWarden.Proofs.QuorumVerdict

/-! The verdict in closed form, over every sequence of reports. Two counts decide it, and neither the order of the
reports nor that of the named hosts is to be seen in it. -/

namespace QuorumWarden

namespace Conflicts

private theorem top_le_of_subset {some all : Conflicts} (within : some ⊆ all) : some.top.2 ≤ all.top.2 := by
  by_cases positive : 0 < some.top.2
  · exact le_top (within (top_mem positive))
  · omega

/-- The highest count does not depend on the order of the entries; the name that comes with it may. -/
theorem top_of_perm {one other : Conflicts} (perm : one.Perm other) : one.top.2 = other.top.2 :=
  le_antisymm (top_le_of_subset perm.subset) (top_le_of_subset perm.symm.subset)

end Conflicts

namespace Sample

variable {host : String} {reports : List Report}

private theorem countP_contradicts_eq_zero_iff :
    reports.countP (Report.contradicts host) = 0 ↔ ∀ other, .reachable (some other) ∈ reports → other = host := by
  simp only [List.countP_eq_zero]
  constructor
  · intro unanimous other named
    simpa [Report.contradicts] using unanimous _ named
  · intro unanimous report heard
    rcases report with _ | _ | other
    · simp [Report.contradicts]
    · simp [Report.contradicts]
    · simpa [Report.contradicts] using unanimous other heard

/-- What is counted out was counted in before, so nothing is cut off. -/
theorem agreeing_eq_sub (host : String) (reports : List Report) :
    let sample := ofReports host reports
    sample.inactive ≤ sample.members ∧ sample.conflicting ≤ sample.members - sample.inactive ∧
      (sample.agreeing : ℤ) = sample.members - sample.inactive - sample.conflicting := by
  intro sample
  have split : sample.active + sample.inactive = sample.members := (counts_ofReports host reports).split
  have sum : sample.agreeing + sample.conflicting = sample.active := agreeing_add_conflicting host reports
  refine ⟨?_, ?_, ?_⟩ <;> omega

/-- Of the conflicts only what heads them is ever looked at. -/
private theorem diagnose_congr {sample : Sample} {conflicts : Conflicts}
    (same : conflicts.top.2 = sample.conflicts.top.2)
    (headed : sample.quorum ≤ conflicts.top.2 → conflicts.top.1 = sample.conflicts.top.1) :
    ({ sample with conflicts } : Sample).diagnose = sample.diagnose := by
  obtain ⟨hostname, members, active, inactive, conflicting, old⟩ := sample
  have same : conflicts.top.2 = old.top.2 := same
  have headed : members / 2 + 1 ≤ conflicts.top.2 → conflicts.top.1 = old.top.1 := headed
  change diagnose ⟨hostname, members, active, inactive, conflicting, conflicts⟩ = _
  unfold diagnose
  simp only [quorum, agreeing, same] at headed ⊢
  by_cases enough : members / 2 + 1 ≤ old.top.2
  · simp only [headed enough, enough, if_true]
  · simp only [enough, if_false]

/-- A host that is counted often enough is the only one, so it heads the conflicts in any order. -/
theorem diagnose_of_perm {conflicts : Conflicts} (perm : conflicts.Perm (ofReports host reports).conflicts) :
    ({ ofReports host reports with conflicts } : Sample).diagnose = (ofReports host reports).diagnose := by
  have counts := counts_ofReports host reports
  have same := Conflicts.top_of_perm perm
  have headed : (ofReports host reports).quorum ≤ conflicts.top.2 →
      conflicts.top.1 = (ofReports host reports).conflicts.top.1 := by
    intro enough
    rw [quorum_ofReports] at enough
    have positive : 0 < conflicts.top.2 := lt_of_lt_of_le (by simp [majority]) enough
    obtain ⟨_, named⟩ := top_named (same ▸ positive)
    have counted := Conflicts.count_of_mem counts.sorted (perm.subset (Conflicts.top_mem positive))
    rw [counts.named] at counted
    split at counted
    · omega
    · exact majority_unique (enough.trans_eq counted.symm) (enough.trans_eq (same.trans named.symm))
  exact diagnose_congr same headed

/-- A host is confirmed if nobody names another and a majority is with it, and deposed if a majority names one other
host; all else is undecided. -/
theorem verdict_exact (host : String) (reports : List Report) :
    let sample := ofReports host reports
    let quorum := sample.members / 2 + 1
    let Confirmable := (∀ other, .reachable (some other) ∈ reports → other = host) ∧
      quorum ≤ 1 + reports.countP Report.isReachable
    let Discoverable := fun other => other ≠ host ∧ quorum ≤ reports.count (.reachable (some other))
    sample.members = 1 + reports.length ∧
    (∀ primary, sample.diagnose = ⟨.confirmed, primary⟩ ↔ primary = host ∧ Confirmable) ∧
    (∀ other, sample.diagnose = ⟨.discoveredOther, other⟩ ↔ Discoverable other) ∧
    (∀ primary, sample.diagnose = ⟨.undecided, primary⟩ ↔
      primary = "" ∧ ¬Confirmable ∧ ∀ other, ¬Discoverable other) ∧
    (∀ other another, Discoverable other → Discoverable another → other = another) ∧
    (sample.inactive ≤ sample.members ∧ sample.conflicting ≤ sample.members - sample.inactive ∧
      (sample.agreeing : ℤ) = sample.members - sample.inactive - sample.conflicting) ∧
    ∀ conflicts : Conflicts, conflicts.Perm sample.conflicts →
      ({ sample with conflicts } : Sample).diagnose = sample.diagnose := by
  intro sample quorum Confirmable Discoverable
  have majority : quorum = majority reports := quorum_ofReports host reports
  have confirmed : ∀ primary, sample.diagnose = ⟨.confirmed, primary⟩ ↔ primary = host ∧ Confirmable := by
    intro primary
    rw [diagnose_eq_confirmed_iff, countP_contradicts_eq_zero_iff, ← majority]
  have discovered : ∀ other, sample.diagnose = ⟨.discoveredOther, other⟩ ↔ Discoverable other := by
    intro other
    rw [diagnose_eq_discovered_iff, ← majority]
  have unnamed : sample.diagnose.verdict = .undecided → sample.diagnose.primary = "" := by
    simp only [diagnose]
    split_ifs <;> simp
  have undecided : ∀ primary, sample.diagnose = ⟨.undecided, primary⟩ ↔
      primary = "" ∧ ¬Confirmable ∧ ∀ other, ¬Discoverable other := by
    intro primary
    constructor
    · intro undecided
      refine ⟨?_, fun confirmable => ?_, fun other discoverable => ?_⟩
      · simpa [undecided] using unnamed
      · simpa [undecided] using (confirmed host).mpr ⟨rfl, confirmable⟩
      · simpa [undecided] using (discovered other).mpr discoverable
    · rintro ⟨rfl, unconfirmed, undiscovered⟩
      rcases verdict : sample.diagnose with ⟨_ | _ | _, primary⟩
      · exact absurd ((confirmed primary).mp verdict).2 unconfirmed
      · simpa [verdict] using unnamed
      · exact absurd ((discovered primary).mp verdict) (undiscovered primary)
  have unrivalled : ∀ other another, Discoverable other → Discoverable another → other = another := by
    rintro other another ⟨_, enough⟩ ⟨_, also⟩
    exact majority_unique (majority ▸ enough) (majority ▸ also)
  exact ⟨(counts_ofReports host reports).members, confirmed, discovered, undecided, unrivalled,
    agreeing_eq_sub host reports, fun conflicts => diagnose_of_perm⟩

end Sample

end QuorumWarden
