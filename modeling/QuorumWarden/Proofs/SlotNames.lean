import Mathlib
import QuorumWarden.Proofs.Numerals
import QuorumWarden.Proofs.RoleGaps

/-! Slots that are named after members. Behind the common start a name may spell the number in any way, so a member owns
more than one name; of these only the terse one is the name that a member is given. -/

namespace QuorumWarden

namespace Slot

/-- The number in the name has no sign and no zero without need. -/
def isTerse (name : String) : Bool := Text.isTerse (name.toList.drop namePrefix.length)

theorem suffix_append (suffix : String) : (namePrefix ++ suffix).toList.drop namePrefix.length = suffix.toList := by
  rw [String.toList_append, ← String.length_toList, List.drop_left]

theorem suffix?_eq_some_iff {name suffix : String} : suffix? name = some suffix ↔ name = namePrefix ++ suffix := by
  rw [suffix?, Option.ite_none_right_eq_some, List.isPrefixOf_iff_prefix, Option.some.injEq]
  constructor
  · intro found
    obtain ⟨⟨rest, split⟩, rfl⟩ := found
    have whole : name = namePrefix ++ String.ofList rest := by
      apply String.toList_injective
      rw [String.toList_append, String.toList_ofList, split]
    rw [whole, suffix_append, String.toList_ofList]
  · intro named
    subst named
    rw [suffix_append, String.ofList_toList, String.toList_append]
    exact ⟨List.prefix_append _ _, rfl⟩

theorem memberOfName?_eq_some_iff {name : String} {id : Int} : memberOfName? name = some id ↔
    Text.FitsInt32 id ∧ ∃ numeral, Text.Numeral id numeral ∧ name = namePrefix ++ String.ofList numeral := by
  simp only [memberOfName?, Option.bind_eq_some_iff, suffix?_eq_some_iff, Text.int32?_eq_some_iff]
  constructor
  · intro read
    obtain ⟨suffix, rfl, fits, numeral⟩ := read
    exact ⟨fits, suffix.toList, numeral, by rw [String.ofList_toList]⟩
  · intro named
    obtain ⟨fits, numeral, spelled, rfl⟩ := named
    exact ⟨_, rfl, fits, by rwa [String.toList_ofList]⟩

theorem isTerse_append (suffix : String) : isTerse (namePrefix ++ suffix) = Text.isTerse suffix.toList := by
  rw [isTerse, suffix_append]

theorem isTerse_iff {name : String} {id : Int} (named : memberOfName? name = some id) :
    isTerse name = true ↔ name = nameFor id := by
  obtain ⟨_, numeral, spelled, rfl⟩ := memberOfName?_eq_some_iff.mp named
  rw [isTerse_append, String.toList_ofList, spelled.isTerse_iff, nameFor]
  constructor
  · intro printed
    rw [printed, String.ofList_toList]
  · intro same
    have numerals := congrArg String.toList same
    simpa using numerals

theorem memberOfName?_nameFor {id : Int} (fits : Text.FitsInt32 id) : memberOfName? (nameFor id) = some id := by
  apply memberOfName?_eq_some_iff.mpr
  exact ⟨fits, _, Text.numeral_toString id, by rw [nameFor, String.ofList_toList]⟩

/-- Zeros in front of the number make further names of the same member. -/
theorem exists_other_name {name : String} {id : Int} (named : memberOfName? name = some id) :
    ∃ other, other ≠ name ∧ memberOfName? other = some id := by
  obtain ⟨fits, numeral, spelled, rfl⟩ := memberOfName?_eq_some_iff.mp named
  obtain ⟨longer, spelledToo, length⟩ := spelled.exists_longer
  refine ⟨namePrefix ++ String.ofList longer, ?_, memberOfName?_eq_some_iff.mpr ⟨fits, longer, spelledToo, rfl⟩⟩
  intro same
  have numerals : longer = numeral := by simpa using congrArg String.toList same
  rw [numerals] at length
  exact Nat.lt_irrefl _ length

/-- Reading a name and making it undo each other for the names that are terse, and for no other name that is read. -/
theorem undone_iff_isTerse {name : String} :
    (∀ id, Text.FitsInt32 id → (memberOfName? name = some id ↔ name = nameFor id)) ↔
      ((memberOfName? name).isSome = true → isTerse name = true) := by
  constructor
  · intro undone read
    obtain ⟨id, named⟩ := Option.isSome_iff_exists.mp read
    obtain ⟨fits, _⟩ := memberOfName?_eq_some_iff.mp named
    exact (isTerse_iff named).mpr ((undone id fits).mp named)
  · intro terse id fits
    constructor
    · intro named
      exact (isTerse_iff named).mp (terse (Option.isSome_of_eq_some named))
    · intro made
      rw [made, memberOfName?_nameFor fits]

end Slot

/-- A name stands for a member in all the ways in which its number can be written. So a member has one terse name,
which is the one it is given, and a watch over slots drops by any of the others as well. -/
theorem Slot.names_of_members (name : String) :
    (∀ id, memberOfName? name = some id ↔
      Text.FitsInt32 id ∧ ∃ numeral, Text.Numeral id numeral ∧ name = namePrefix ++ String.ofList numeral) ∧
    ((∀ id, Text.FitsInt32 id → (memberOfName? name = some id ↔ name = nameFor id)) ↔
      ((memberOfName? name).isSome = true → isTerse name = true)) ∧
    (∀ id, memberOfName? name = some id → (∃ other, other ≠ name ∧ memberOfName? other = some id) ∧
      ∀ other, memberOfName? other = some id → isTerse other = true → (name = other ↔ isTerse name = true)) ∧
    (∀ host settings clocks sweep after, Pass.Taken (IdleSlots.reap host settings) clocks sweep after →
      ∀ asker, .dropSlot asker name ∈ sweep.calls →
        ∃ id, memberOfName? name = some id ∧ (name = nameFor id ↔ isTerse name = true)) := by
  refine ⟨fun _ => memberOfName?_eq_some_iff, undone_iff_isTerse, ?_, ?_⟩
  · intro id named
    refine ⟨exists_other_name named, ?_⟩
    intro other another terse
    rw [isTerse_iff named, (isTerse_iff another).mp terse]
  · intro host settings clocks sweep after taken asker asks
    obtain ⟨_, warranted⟩ := IdleSlots.taken_warranted taken
    rcases warranted _ asks with same | same | ⟨_, same⟩ | ⟨_, _, id, same, named, _⟩
    · cases same
    · cases same
    · cases same
    · cases same
      exact ⟨id, named, (isTerse_iff named).symm⟩

private def lone : Playbook where
  server := ⟨"host-1", [], true⟩
  members := [⟨1, "host-1", "default", true, .primary⟩]

private def loneAnswer (request : Request) (ground : Ground) : Option (request.Reply × Ground) :=
  match request with
  | .awaitOrStop (.call (.slots _)) =>
    some (some (.ok [⟨"repmgr_slot_-7", false, 0⟩, ⟨"repmgr_slot_007", false, 0⟩]), ground)
  | request => lone.answer request ground

private def loneSweep : Sweep DroppedSlots :=
  ⟨5, (((IdleSlots.reap "host-1" ⟨⟨10⟩, ⟨60⟩, 1⟩ 5).runFrom {}).play loneAnswer {}).1,
    .ok { orphaned := ["repmgr_slot_-7", "repmgr_slot_007"] }⟩

private theorem loneSweep_drops : Pass.Taken (IdleSlots.reap "host-1" ⟨⟨10⟩, ⟨60⟩, 1⟩) {} loneSweep {} ∧
    .dropSlot "host-1" "repmgr_slot_-7" ∈ loneSweep.calls ∧ .dropSlot "host-1" "repmgr_slot_007" ∈ loneSweep.calls :=
  ⟨Pass.taken_of_play (by cbv), List.mem_of_elem_eq_true (by cbv), List.mem_of_elem_eq_true (by cbv)⟩

/-- The limits are read back from the names made for them. A slot is dropped under the name of a member that has a
number below zero. -/
theorem Slot.terse_name_dropped :
    memberOfName? (nameFor (-2147483648)) = some (-2147483648) ∧
    memberOfName? (nameFor 2147483647) = some 2147483647 ∧
    ∃ sweep after, Pass.Taken (IdleSlots.reap "host-1" ⟨⟨10⟩, ⟨60⟩, 1⟩) {} sweep after ∧
      .dropSlot "host-1" "repmgr_slot_-7" ∈ sweep.calls ∧ "repmgr_slot_-7" = nameFor (-7) := by
  have undone (name : String) := (Slot.names_of_members name).2.1
  obtain ⟨_, _, _, drops⟩ := Slot.names_of_members "repmgr_slot_-7"
  obtain ⟨taken, dropped, _⟩ := loneSweep_drops
  refine ⟨?_, ?_, loneSweep, {}, taken, dropped, ?_⟩
  · exact ((undone _).mpr (fun _ => by cbv) _ (by decide)).mpr rfl
  · exact ((undone _).mpr (fun _ => by cbv) _ (by decide)).mpr rfl
  · obtain ⟨id, named, made⟩ := drops _ _ _ _ _ taken _ dropped
    have number : memberOfName? "repmgr_slot_-7" = some (-7) := by cbv
    obtain rfl : id = -7 := Option.some.inj (named.symm.trans number)
    exact made.mpr (by cbv)

/-- Two names of one member, and a slot dropped under a name that no member is given. -/
theorem Slot.padded_name_dropped :
    memberOfName? "repmgr_slot_007" = some 7 ∧ memberOfName? (nameFor 7) = some 7 ∧ "repmgr_slot_007" ≠ nameFor 7 ∧
    ∃ sweep after, Pass.Taken (IdleSlots.reap "host-1" ⟨⟨10⟩, ⟨60⟩, 1⟩) {} sweep after ∧
      .dropSlot "host-1" "repmgr_slot_007" ∈ sweep.calls ∧ ∀ id, Text.FitsInt32 id → "repmgr_slot_007" ≠ nameFor id := by
  obtain ⟨taken, _, dropped⟩ := loneSweep_drops
  have number : memberOfName? "repmgr_slot_007" = some 7 := by cbv
  have padded : isTerse "repmgr_slot_007" = false := by cbv
  have other : "repmgr_slot_007" ≠ nameFor 7 := by
    intro same
    rw [(isTerse_iff number).mpr same] at padded
    cases padded
  refine ⟨number, memberOfName?_nameFor (by decide), other, loneSweep, {}, taken, dropped, ?_⟩
  intro id fits same
  have named : memberOfName? "repmgr_slot_007" = some id := by rw [same, memberOfName?_nameFor fits]
  obtain rfl : id = 7 := Option.some.inj (named.symm.trans number)
  exact other same

end QuorumWarden
