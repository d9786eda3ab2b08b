import Mathlib
import QuorumWarden.Quorum.Sample

/-! What a sample's counters stand for. They are counts over the reports heard, so a verdict
depends on the reports only through how many there are of each kind. -/

namespace QuorumWarden

namespace Conflicts

def Sorted (conflicts : Conflicts) : Prop := conflicts.Pairwise (·.1 < ·.1)

private theorem record_host {host : String} {conflicts : Conflicts} {entry : String × Nat}
    (member : entry ∈ conflicts.record host) : entry.1 = host ∨ ∃ old ∈ conflicts, old.1 = entry.1 := by
  induction conflicts with
  | nil => exact Or.inl (by simp_all [record])
  | cons first rest ih =>
    simp only [record] at member
    split at member
    · rcases List.mem_cons.mp member with rfl | member
      · exact Or.inr ⟨first, by simp, rfl⟩
      · exact Or.inr ⟨entry, by simp [member], rfl⟩
    · split at member
      · rcases List.mem_cons.mp member with rfl | member
        · exact Or.inl rfl
        · exact Or.inr ⟨entry, member, rfl⟩
      · rcases List.mem_cons.mp member with rfl | member
        · exact Or.inr ⟨first, by simp, rfl⟩
        · exact (ih member).imp_right fun ⟨old, inside, same⟩ => ⟨old, by simp [inside], same⟩

theorem record_sorted {conflicts : Conflicts} (host : String) (sorted : Sorted conflicts) :
    Sorted (conflicts.record host) := by
  induction conflicts with
  | nil => exact List.pairwise_singleton _ _
  | cons first rest ih =>
    obtain ⟨below, sorted'⟩ := List.pairwise_cons.mp sorted
    simp only [record]
    split
    · exact List.pairwise_cons.mpr ⟨below, sorted'⟩
    next other =>
      split
      next less =>
        refine List.pairwise_cons.mpr ⟨fun entry member => ?_, sorted⟩
        rcases List.mem_cons.mp member with rfl | member
        · exact less
        · exact less.trans (below entry member)
      next notLess =>
        have above : first.1 < host := lt_of_le_of_ne (not_lt.mp notLess) other
        refine List.pairwise_cons.mpr ⟨fun entry member => ?_, ih sorted'⟩
        rcases record_host member with same | ⟨old, inside, same⟩
        · exact same ▸ above
        · exact same ▸ below old inside

private theorem count_cons (first : String × Nat) (rest : Conflicts) (host : String) :
    count host (first :: rest) = if host = first.1 then first.2 else count host rest := by
  obtain ⟨other, named⟩ := first
  by_cases same : host = other
  · simp [count, List.lookup, same]
  · simp [count, List.lookup, same, beq_false_of_ne same]

theorem count_of_absent {conflicts : Conflicts} {host : String} (absent : ∀ entry ∈ conflicts, entry.1 ≠ host) :
    conflicts.count host = 0 := by
  induction conflicts with
  | nil => rfl
  | cons first rest ih =>
    rw [count_cons, if_neg (Ne.symm (absent first (by simp)))]
    exact ih fun entry member => absent entry (by simp [member])

theorem count_of_mem {conflicts : Conflicts} (sorted : Sorted conflicts) {entry : String × Nat}
    (member : entry ∈ conflicts) : conflicts.count entry.1 = entry.2 := by
  induction conflicts with
  | nil => cases member
  | cons first rest ih =>
    obtain ⟨below, sorted⟩ := List.pairwise_cons.mp sorted
    rw [count_cons]
    rcases List.mem_cons.mp member with rfl | member
    · exact if_pos rfl
    · rw [if_neg (ne_of_gt (below entry member))]
      exact ih sorted member

theorem count_record {conflicts : Conflicts} (sorted : Sorted conflicts) (host other : String) :
    (conflicts.record host).count other = conflicts.count other + if other = host then 1 else 0 := by
  induction conflicts with
  | nil => exact (count_cons _ _ _).trans (by simp [count])
  | cons first rest ih =>
    obtain ⟨below, sorted⟩ := List.pairwise_cons.mp sorted
    simp only [record]
    split
    next same => by_cases here : other = first.1 <;> simp [count_cons, here, ← same]
    next different =>
      split
      next less =>
        have absent : count host (first :: rest) = 0 := by
          apply count_of_absent
          intro entry member
          rcases List.mem_cons.mp member with rfl | member
          · exact ne_of_gt less
          · exact ne_of_gt (less.trans (below entry member))
        rw [count_cons]
        split
        next same => simp [same, absent]
        next => rfl
      next =>
        rw [count_cons, count_cons, ih sorted]
        split
        next same => simp [same, different]
        next => rfl

private theorem top_from (conflicts : Conflicts) (best : String × Nat) :
    let found := conflicts.foldl (fun best entry => if best.2 < entry.2 then entry else best) best
    (found ∈ conflicts ∨ found = best) ∧ best.2 ≤ found.2 ∧ ∀ entry ∈ conflicts, entry.2 ≤ found.2 := by
  induction conflicts generalizing best with
  | nil => simp
  | cons first rest ih =>
    obtain ⟨source, above, bound⟩ := ih (if best.2 < first.2 then first else best)
    have larger : best.2 ≤ (if best.2 < first.2 then first else best).2 ∧
        first.2 ≤ (if best.2 < first.2 then first else best).2 := by
      split <;> omega
    simp only [List.foldl_cons, List.mem_cons, forall_eq_or_imp]
    refine ⟨?_, larger.1.trans above, larger.2.trans above, bound⟩
    · rcases source with member | same
      · exact Or.inl (Or.inr member)
      · rw [same]
        split
        · exact Or.inl (Or.inl rfl)
        · exact Or.inr rfl

theorem top_mem {conflicts : Conflicts} (positive : 0 < conflicts.top.2) : conflicts.top ∈ conflicts := by
  rcases (top_from conflicts ("", 0)).1 with member | same
  · exact member
  · rw [top, same] at positive
    exact absurd positive (lt_irrefl 0)

theorem le_top {conflicts : Conflicts} {entry : String × Nat} (member : entry ∈ conflicts) :
    entry.2 ≤ conflicts.top.2 := (top_from conflicts ("", 0)).2.2 entry member

theorem count_le_top (conflicts : Conflicts) (host : String) : conflicts.count host ≤ conflicts.top.2 := by
  cases found : conflicts.lookup host with
  | none => simp [count, found]
  | some named =>
    have member : (host, named) ∈ conflicts := by
      obtain ⟨before, after, rfl, _⟩ := List.lookup_eq_some_iff.mp found
      simp
    simpa [count, found] using le_top member

end Conflicts

namespace Report

def isReachable : Report → Bool
  | .unreachable => false
  | .reachable _ => true

def contradicts (host : String) : Report → Bool
  | .reachable (some named) => named != host
  | _ => false

end Report

namespace Sample

structure Counts (host : String) (reports : List Report) (sample : Sample) : Prop where
  hostname : sample.hostname = host
  members : sample.members = 1 + reports.length
  active : sample.active = 1 + reports.countP Report.isReachable
  split : sample.active + sample.inactive = sample.members
  conflicting : sample.conflicting = reports.countP (Report.contradicts host)
  sorted : sample.conflicts.Sorted
  named : ∀ other, sample.conflicts.count other = if other = host then 0 else reports.count (.reachable (some other))

theorem ofReports_append (host : String) (reports : List Report) (report : Report) :
    ofReports host (reports ++ [report]) = (ofReports host reports).record report := by
  simp [ofReports]

theorem counts_record {host : String} {reports : List Report} {sample : Sample}
    (counts : Counts host reports sample) (report : Report) :
    Counts host (reports ++ [report]) (sample.record report) := by
  obtain ⟨rfl, members, active, split, conflicting, sorted, named⟩ := counts
  have kept : (∀ other, report = .reachable (some other) → other = sample.hostname) →
      ∀ other, sample.conflicts.count other =
        if other = sample.hostname then 0 else (reports ++ [report]).count (.reachable (some other)) := by
    intro agrees other
    rw [named, List.count_append]
    split
    · rfl
    next different =>
      have unnamed : report ≠ .reachable (some other) := fun same => different (agrees other same)
      simp [unnamed]
  cases report with
  | unreachable =>
    refine ⟨rfl, ?_, ?_, ?_, ?_, sorted, kept (by simp)⟩ <;>
      simp [record, Report.isReachable, Report.contradicts, members, active, conflicting] <;> omega
  | reachable primary =>
    cases primary with
    | none =>
      refine ⟨rfl, ?_, ?_, ?_, ?_, sorted, kept (by simp)⟩ <;>
        simp [record, Report.isReachable, Report.contradicts, members, active, conflicting] <;> omega
    | some primary =>
      by_cases own : primary = sample.hostname
      · simp only [record, if_pos own]
        refine ⟨rfl, ?_, ?_, ?_, ?_, sorted, kept (by simp [own])⟩ <;>
          simp [Report.isReachable, Report.contradicts, members, active, conflicting, own] <;> omega
      · have counted : ∀ other, (sample.conflicts.record primary).count other =
            if other = sample.hostname then 0
            else (reports ++ [Report.reachable (some primary)]).count (Report.reachable (some other)) := by
          intro other
          rw [Conflicts.count_record sorted, named, List.count_append]
          by_cases here : other = primary
          · simp [here, own]
          · simp [here, Ne.symm here]
        simp only [record, if_neg own]
        refine ⟨rfl, ?_, ?_, ?_, ?_, Conflicts.record_sorted primary sorted, counted⟩ <;>
          simp [Report.isReachable, Report.contradicts, members, active, conflicting, own] <;> omega

theorem counts_ofReports (host : String) (reports : List Report) : Counts host reports (ofReports host reports) := by
  induction reports using List.reverseRecOn with
  | nil => exact ⟨rfl, rfl, rfl, rfl, rfl, List.Pairwise.nil, fun other => by simp [ofReports, alone, Conflicts.count]⟩
  | append_singleton reports report ih =>
    rw [ofReports_append]
    exact counts_record ih report

end Sample

end QuorumWarden
