import Mathlib
import QuorumWarden.Proofs.DeadMemberPasses
import QuorumWarden.Proofs.PlayedGround

/-! Passes one after another. A member's clock tells since when the member has not answered, as far as the passes
can know, and it is unregistered when that has lasted long enough. -/

namespace QuorumWarden

open QuorumWarden.DeadMembers

namespace Sweep

def lists (sweep : Sweep (List Int)) (id : Int) : Bool := Topology.contains ⟨sweep.members⟩ id

/-- What connecting to this standby came to. The node dials itself first, then its standbys in turn. -/
def probe? (sweep : Sweep (List Int)) (id : Int) : Option (Outcome Unit) :=
  probeOf id (Topology.standbys ⟨sweep.members⟩) (sweep.deeds.filterMap dialled?).tail

def removal? (sweep : Sweep (List Int)) (id : Int) : Option (Outcome Unit) := removalOf id sweep.deeds

def reaches (sweep : Sweep (List Int)) (id : Int) : Bool := sweep.probe? id = some (.ok ())

def removes (sweep : Sweep (List Int)) (id : Int) : Bool := sweep.removal? id = some (.ok ())

theorem unprobed_of_unlisted {sweep : Sweep (List Int)} {id : Int} (unlisted : sweep.lists id = false) :
    sweep.probe? id = none := by
  apply DeadMembers.unprobed_of_unlisted
  intro member
  obtain ⟨standby, among, rfl⟩ := List.mem_map.mp member
  have listed : sweep.lists standby.id = true :=
    List.any_eq_true.mpr ⟨standby, List.mem_of_mem_filter among, beq_self_eq_true _⟩
  rw [listed] at unlisted
  cases unlisted

end Sweep

namespace DeadMembers

/-- The latest passes in which the member was in the catalog and stayed there. -/
def stretch (id : Int) (sweeps : List (Sweep (List Int))) : List (Sweep (List Int)) :=
  sweeps.rtakeWhile fun sweep => sweep.lists id && !sweep.removes id

/-- When the member answered last, or else when it was first dialled. -/
def since? (id : Int) (sweeps : List (Sweep (List Int))) : Option Nat :=
  ((sweeps.filter (·.reaches id)).getLast?.or (sweeps.find? fun sweep => (sweep.probe? id).isSome)).map Sweep.now

/-- A pass of the primary over a catalog that it could read, which nothing stopped. -/
structure Reaped (host : String) (threshold : Duration) (clocks : Clocks) (sweep : Sweep (List Int))
    (after : Clocks) : Prop where
  ran : Pass.Ran (reap host threshold sweep.now) clocks sweep.trace sweep.outcome after
  uncancelled : sweep.outcome.Uncancelled
  listed : surveyed sweep.deeds = some sweep.members
  distinct : (sweep.members.map Member.id).Nodup
  primary : ∃ row, Topology.row ⟨sweep.members⟩ host = .ok row ∧ row.isPrimary = true

variable {host : String} {threshold : Duration} {clocks after : Clocks} {sweep : Sweep (List Int)}
  {earlier : List (Sweep (List Int))} {id : Int}

theorem since_concat (id : Int) (sweeps : List (Sweep (List Int))) (sweep : Sweep (List Int)) :
    since? id (sweeps ++ [sweep]) = clockFrom sweep.now (since? id sweeps) (sweep.probe? id) := by
  simp only [since?, List.filter_append, List.find?_append, List.getLast?_append]
  generalize (sweeps.filter (·.reaches id)).getLast? = reached
  generalize sweeps.find? (fun sweep => (sweep.probe? id).isSome) = probed
  match probe : sweep.probe? id with
  | none => simp [Sweep.reaches, probe, clockFrom]
  | some (.ok ()) => simp [Sweep.reaches, probe, clockFrom]
  | some (.error failure) => cases reached <;> cases probed <;> simp [Sweep.reaches, probe, clockFrom]

theorem stretch_concat_of_left (left : ¬(sweep.lists id && !sweep.removes id) = true) (sweeps : List (Sweep (List Int))) :
    stretch id (sweeps ++ [sweep]) = [] := List.rtakeWhile_concat_neg _ _ _ left

theorem stretch_concat_of_stays (stays : (sweep.lists id && !sweep.removes id) = true) (sweeps : List (Sweep (List Int))) :
    stretch id (sweeps ++ [sweep]) = stretch id sweeps ++ [sweep] := List.rtakeWhile_concat_pos _ _ _ stays

/-- The order in which a pass dials, by which its probes are told apart. -/
theorem Reaped.dialled (reaped : Reaped host threshold clocks sweep after) :
    (sweep.deeds.filterMap dialled?).map Prod.fst = host :: (Topology.standbys ⟨sweep.members⟩).map Member.hostname := by
  obtain ⟨row, own, primary⟩ := reaped.primary
  obtain ⟨visits, _, _, _, deeds, each, _⟩ := visits_of_ran reaped.ran reaped.uncancelled reaped.listed own primary
  rw [Sweep.deeds, deeds, ← each.dialled]
  rfl

theorem Reaped.told (reaped : Reaped host threshold clocks sweep after) :
    ∃ ids, sweep.outcome = .ok ids ∧ ∀ id, ∃ clock,
      Told threshold sweep.now (clocks.get? id) (sweep.probe? id) (sweep.removal? id) clock ∧
        after.get? id = (if sweep.lists id then clock else none) ∧ (id ∈ ids ↔ sweep.removal? id = some (.ok ())) := by
  obtain ⟨row, own, primary⟩ := reaped.primary
  obtain ⟨visits, ids, between, ended, deeds, each, rfl⟩ :=
    visits_of_ran reaped.ran reaped.uncancelled reaped.listed own primary
  refine ⟨ids, ended, fun id => ⟨between.get? id, ?_⟩⟩
  have distinct : ((Topology.standbys ⟨sweep.members⟩).map Member.id).Nodup :=
    reaped.distinct.sublist (List.filter_sublist.map Member.id)
  have probe : sweep.probe? id = probeOf id (Topology.standbys ⟨sweep.members⟩) (visits.filterMap dialled?) := by
    unfold Sweep.probe? Sweep.deeds
    rw [deeds]
    rfl
  have removal : sweep.removal? id = removalOf id visits := by
    unfold Sweep.removal? Sweep.deeds
    rw [deeds]
    rfl
  rw [probe, removal]
  obtain ⟨told, removed⟩ := each.told distinct id
  exact ⟨told, Clocks.get?_keepOnly _ _ id, removed⟩

theorem clock_of_passes (passes : Passes (Reaped host threshold) earlier clocks) (id : Int) :
    clocks.get? id = since? id (stretch id earlier) := by
  induction passes with
  | start => rfl
  | @next earlier clocks sweep after passes reaped ih =>
    obtain ⟨_, _, tells⟩ := reaped.told
    obtain ⟨clock, told, kept, _⟩ := tells id
    rw [kept]
    -- the pass lengthens the member's stretch, or it ends it and stops the clock
    by_cases stays : (sweep.lists id && !sweep.removes id) = true
    · rw [stretch_concat_of_stays stays, since_concat, ← ih]
      obtain ⟨listed, unremoved⟩ := Bool.and_eq_true_iff.mp stays
      have unremoved : sweep.removal? id ≠ some (.ok ()) := by simpa [Sweep.removes] using unremoved
      rw [if_pos listed, told.runs_on unremoved]
    · rw [stretch_concat_of_left stays]
      cases listed : sweep.lists id with
      | false => rfl
      | true =>
        have removed : sweep.removal? id = some (.ok ()) := by simpa [listed, Sweep.removes] using stays
        rw [removed] at told
        exact told.stopped

private def unanswered : Playbook where
  server := ⟨"host-1", [], true⟩
  members := [⟨1, "host-1", "default", true, .primary⟩, ⟨2, "host-2", "default", true, .standby⟩]
  broken := [.connect "host-2"]

private def watched (now : Nat) (clocks : Clocks) := unanswered.plays ((reap "host-1" ⟨60⟩ now).runFrom clocks) {}

end DeadMembers

end QuorumWarden
