import Mathlib
import QuorumWarden.Proofs.IdleSlotPasses
import QuorumWarden.Proofs.PlayedGround

/-! Passes over the slots, one after another. A clock tells since when a standby's slot has been idle without a
break, and a slot is dropped when that has lasted too long or its member is gone. -/

namespace QuorumWarden

open QuorumWarden.IdleSlots

namespace Sweep

variable (sweep : Sweep DroppedSlots)

def listing? : Option (List Slot) := listingOf sweep.deeds

def slots : List Slot := sweep.listing?.getD []

def tends (id : Int) : Bool := Topology.hasStandby ⟨sweep.members⟩ id

def drop? (name : String) : Option (Outcome Unit) := dropOf name sweep.deeds

def drops (slot : Slot) : Bool := sweep.drop? slot.name = some (.ok ())

/-- The standby's slot is not in use, and stays. A drop that failed leaves it there. -/
def idles (id : Int) : Bool :=
  sweep.tends id && sweep.slots.any fun slot => slot.member? = some id && !slot.active && !sweep.drops slot

end Sweep

namespace IdleSlots

/-- The latest passes over the slots in which the member's slot was idle and stayed. A pass that did not list
them does not count. -/
def stretch (id : Int) (sweeps : List (Sweep DroppedSlots)) : List (Sweep DroppedSlots) :=
  (sweeps.filter (·.listing?.isSome)).rtakeWhile (·.idles id)

/-- When the first of these passes was. -/
def since? (sweeps : List (Sweep DroppedSlots)) : Option Nat := sweeps.head?.map Sweep.now

/-- A pass that nothing stopped. It may fail for another reason, and no two slots are to belong to one member. -/
structure Reaped (host : String) (settings : SlotSettings) (clocks : Clocks) (sweep : Sweep DroppedSlots)
    (after : Clocks) : Prop where
  ran : Pass.Ran (reap host settings sweep.now) clocks sweep.trace sweep.outcome after
  uncancelled : sweep.outcome.Uncancelled
  distinct : (sweep.slots.filterMap Slot.member?).Nodup

variable {host : String} {settings : SlotSettings} {clocks after : Clocks} {sweep : Sweep DroppedSlots}
  {earlier : List (Sweep DroppedSlots)} {id : Int}

/-- A pass without a listing does nothing, and a pass with one deals with all that is listed. -/
theorem Reaped.visits (reaped : Reaped host settings clocks sweep after) :
    (sweep.listing? = none ∧ (∀ name, sweep.drop? name = none) ∧ after = clocks ∧
        Barred host sweep.deeds sweep.outcome) ∨
      sweep.listing?.isSome ∧ ∃ visits fates between,
        VisitedEach host settings ⟨sweep.members⟩ sweep.now sweep.slots clocks visits fates between ∧
          (∀ name, sweep.drop? name = dropOf name visits) ∧
          sweep.outcome = .ok { orphaned := named fates .orphaned, expired := named fates .expired } ∧
          after = between.keepOnly fun id => fates.any (·.2 = .idle id) := by
  rcases visits_of_ran reaped.ran reaped.uncancelled with
    ⟨deeds, told, unlisted, undropped, same, barred⟩ | ⟨members, slots, visits, fates, between, told, each, ended, kept⟩
  · have deeds : sweep.deeds = deeds := told.filterMap
    unfold Sweep.listing? Sweep.drop?
    rw [deeds]
    exact Or.inl ⟨unlisted, undropped, same, barred⟩
  · have deeds : sweep.deeds = _ := told.filterMap
    have listed : sweep.listing? = some slots := by rw [Sweep.listing?, deeds]; rfl
    have read : sweep.members = members := by rw [Sweep.members, deeds]; rfl
    refine Or.inr ⟨Option.isSome_iff_exists.mpr ⟨slots, listed⟩, visits, fates, between, ?_, fun name => ?_, ended, kept⟩
    · rw [read, Sweep.slots, listed]
      exact each
    · rw [Sweep.drop?, deeds]
      rfl

/-- The report names the slots that were dropped, by whether their member is still a standby. -/
theorem VisitedEach.reported {topology : Topology} {now : Nat} {slots : List Slot} {deeds : List Deed}
    {fates : List (Slot × Fate)} (each : VisitedEach host settings topology now slots clocks deeds fates after)
    (distinct : (slots.filterMap Slot.member?).Nodup) :
    named fates .orphaned = (slots.filter fun slot => dropOf slot.name deeds = some (.ok ()) &&
        !slot.member?.any topology.hasStandby).map Slot.name ∧
      named fates .expired = (slots.filter fun slot => dropOf slot.name deeds = some (.ok ()) &&
        slot.member?.any topology.hasStandby).map Slot.name := by
  rw [← each.visited_slots, List.filter_map, List.filter_map, List.map_map, List.map_map]
  unfold named
  refine ⟨congrArg _ (List.filter_congr fun entry member => ?_), congrArg _ (List.filter_congr fun entry member => ?_)⟩
  · cases named : entry.1.member? with
    | none => simp [each.left entry member named, each.undropped named]
    | some id => simp [(each.told distinct entry member id named).orphaned, named]
  · cases named : entry.1.member? with
    | none => simp [each.left entry member named, each.undropped named]
    | some id => simp [(each.told distinct entry member id named).expired, named]

theorem idles_iff {visits : List Deed} (drops : ∀ name, sweep.drop? name = dropOf name visits) :
    sweep.idles id = true ↔ Topology.hasStandby ⟨sweep.members⟩ id = true ∧
      ∃ slot ∈ sweep.slots, slot.member? = some id ∧ slot.active = false ∧ dropOf slot.name visits ≠ some (.ok ()) := by
  simp [Sweep.idles, Sweep.tends, Sweep.drops, drops, and_assoc]

theorem stretch_concat_of_unlisted (unlisted : sweep.listing? = none) (sweeps : List (Sweep DroppedSlots)) :
    stretch id (sweeps ++ [sweep]) = stretch id sweeps := by
  simp [stretch, unlisted]

theorem listings_concat (listed : sweep.listing?.isSome = true) (sweeps : List (Sweep DroppedSlots)) :
    (sweeps ++ [sweep]).filter (·.listing?.isSome) = sweeps.filter (·.listing?.isSome) ++ [sweep] := by
  simp [listed]

theorem stretch_concat_of_idle (listed : sweep.listing?.isSome = true) (idle : sweep.idles id = true)
    (sweeps : List (Sweep DroppedSlots)) : stretch id (sweeps ++ [sweep]) = stretch id sweeps ++ [sweep] := by
  unfold stretch
  rw [listings_concat listed]
  exact List.rtakeWhile_concat_pos _ _ _ idle

theorem stretch_concat_of_busy (listed : sweep.listing?.isSome = true) (busy : ¬sweep.idles id = true)
    (sweeps : List (Sweep DroppedSlots)) : stretch id (sweeps ++ [sweep]) = [] := by
  unfold stretch
  rw [listings_concat listed]
  exact List.rtakeWhile_concat_neg _ _ _ busy

theorem since_concat (sweeps : List (Sweep DroppedSlots)) (sweep : Sweep DroppedSlots) :
    since? (sweeps ++ [sweep]) = some ((since? sweeps).getD sweep.now) := by
  cases sweeps <;> rfl

theorem clock_of_passes (passes : Passes (Reaped host settings) earlier clocks) (id : Int) :
    clocks.get? id = since? (stretch id earlier) := by
  induction passes with
  | start => rfl
  | @next earlier clocks sweep after passes reaped ih =>
    rcases reaped.visits with ⟨unlisted, _, rfl, _⟩ | ⟨listed, visits, fates, between, each, drops, _, rfl⟩
    · rw [stretch_concat_of_unlisted unlisted, ih]
    · have idles : sweep.idles id = true ↔ ∃ entry ∈ fates, entry.2 = .idle id :=
        (idles_iff drops).trans (each.idle_iff reaped.distinct).symm
      have keeps : (fates.any (·.2 = .idle id)) = true ↔ ∃ entry ∈ fates, entry.2 = .idle id := by simp
      rw [Clocks.get?_keepOnly]
      -- only a slot that idles on keeps its clock, and only its stretch goes on
      by_cases idle : sweep.idles id = true
      · rw [stretch_concat_of_idle listed idle, if_pos (keeps.mpr (idles.mp idle)),
          each.clock reaped.distinct (idles.mp idle), ih, since_concat]
      · rw [stretch_concat_of_busy listed idle, if_neg fun kept => idle (idles.mpr (keeps.mp kept))]
        rfl

end IdleSlots

end QuorumWarden
