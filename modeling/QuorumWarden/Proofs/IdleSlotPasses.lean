import QuorumWarden.Proofs.PassRuns
import QuorumWarden.Watch.IdleSlots

/-! One pass of the watch over the slots, slot by slot. Where no two slots belong to the same member, each of them
is dealt with as if there were no other. -/

namespace QuorumWarden

/-- Whether a standby of this number is in the catalog. -/
def Topology.hasStandby (topology : Topology) (id : Int) : Bool := topology.standbys.any (·.id == id)

namespace IdleSlots

open QuorumWarden.Action

/-- What is done about a slot that is to be dropped, by the answer. -/
def dropDeeds (host name : String) : Outcome Unit → List Deed
  | .ok () => [.prompt .stopRequested false, .call (.dropSlot host name) (.ok ()), .prompt (.count .slotsDropped) ()]
  | .error failure => [.prompt .stopRequested false, .call (.dropSlot host name) (.error failure)]

def warnDeeds (settings : SlotSettings) (slot : Slot) (member : Int) : List Deed :=
  if settings.walWarnMegabytes < slot.retainedMegabytes then
    [.prompt (.notice (.slotRetains slot.name member slot.retainedMegabytes)) ()]
  else []

/-- What a visit may come to: its deeds, what became of the slot, and the clocks it leaves. -/
inductive Visited (host : String) (settings : SlotSettings) (topology : Topology) (now : Nat) (slot : Slot)
    (clocks : Clocks) : List Deed → Fate → Clocks → Prop where
  | unmanaged (unnamed : slot.member? = none) : Visited host settings topology now slot clocks [] .left clocks
  | active (busy : slot.active = true) : Visited host settings topology now slot clocks [] .left clocks
  | orphan {member : Int} (named : slot.member? = some member) (inactive : slot.active = false)
      (gone : topology.hasStandby member = false) (reply : Outcome Unit) :
    Visited host settings topology now slot clocks (dropDeeds host slot.name reply)
      (if reply.isOk then .orphaned else .left) clocks
  | recent {member : Int} (named : slot.member? = some member) (inactive : slot.active = false)
      (registered : topology.hasStandby member = true)
      (recent : (clocks.start member now).elapsed member now ≤ settings.inactiveThreshold.nanos) :
    Visited host settings topology now slot clocks (warnDeeds settings slot member) (.idle member) (clocks.start member now)
  | due {member : Int} (named : slot.member? = some member) (inactive : slot.active = false)
      (registered : topology.hasStandby member = true)
      (due : settings.inactiveThreshold.nanos < (clocks.start member now).elapsed member now) (reply : Outcome Unit) :
    Visited host settings topology now slot clocks (warnDeeds settings slot member ++ dropDeeds host slot.name reply)
      (if reply.isOk then .expired else .idle member)
      (if reply.isOk then (clocks.start member now).stop member else clocks.start member now)

inductive VisitedEach (host : String) (settings : SlotSettings) (topology : Topology) (now : Nat) :
    List Slot → Clocks → List Deed → List (Slot × Fate) → Clocks → Prop where
  | nil {clocks} : VisitedEach host settings topology now [] clocks [] [] clocks
  | cons {slot slots clocks ahead fate between behind others after}
      (visited : Visited host settings topology now slot clocks ahead fate between)
      (rest : VisitedEach host settings topology now slots between behind others after) :
      VisitedEach host settings topology now (slot :: slots) clocks (ahead ++ behind) ((slot, fate) :: others) after

variable {host : String} {settings : SlotSettings} {topology : Topology} {now : Nat} {slot : Slot}
  {clocks after : Clocks} {trace : List (Program.Event Request.Reply)}

theorem dropped_of_ran {name : String} {outcome : Outcome Bool}
    (ran : Pass.Ran (drop ⟨host⟩ name) clocks trace outcome after) (uncancelled : outcome.Uncancelled) :
    ∃ worked, outcome = .ok worked ∧ ∃ reply : Outcome Unit, worked = reply.isOk ∧
      Transcript trace (dropDeeds host name reply) ∧ after = clocks := by
  obtain ⟨_, _, _, rfl, answered, drops, ended⟩ := Pass.ran_settled_bind ran uncancelled
  obtain ⟨reply, rfl, guards⟩ := ran_inContext drops
  obtain ⟨_, inside, told⟩ := transcript_unstopped guards answered.of_within
  have asked := told _ (transcript_answered inside)
  cases reply with
  | error failure =>
    obtain ⟨rfl, rfl, rfl⟩ := Pass.ran_pure ended
    exact ⟨false, rfl, .error failure, rfl, asked.append .nil, rfl⟩
  | ok value =>
    obtain ⟨_, _, rfl, last⟩ := Pass.ran_prompt_bind ended
    obtain ⟨rfl, rfl, rfl⟩ := Pass.ran_pure last
    exact ⟨true, rfl, .ok (), rfl, asked.append (.cons rfl .nil), rfl⟩

theorem warned_of_ran {member : Int} {next : Pass Fate} {outcome : Outcome Fate}
    (ran : Pass.Ran (do
      if settings.walWarnMegabytes < slot.retainedMegabytes then
        Pass.act (ExceptT.lift (Procedure.notice (.slotRetains slot.name member slot.retainedMegabytes)))
      next) clocks trace outcome after) :
    ∃ first second, trace = first ++ second ∧ Transcript first (warnDeeds settings slot member) ∧
      Pass.Ran next clocks second outcome after := by
  unfold warnDeeds
  split at ran
  next retains =>
    obtain ⟨_, second, rfl, onward⟩ := Pass.ran_prompt_bind ran
    rw [if_pos retains]
    exact ⟨[_], second, rfl, .cons rfl .nil, onward⟩
  next spares =>
    rw [if_neg spares]
    exact ⟨[], trace, rfl, .nil, ran⟩

theorem idled_of_ran {member : Int} (named : slot.member? = some member) (inactive : slot.active = false)
    (registered : topology.hasStandby member = true) {outcome : Outcome Fate}
    (ran : Pass.Ran (visitIdle settings ⟨host⟩ now slot member) clocks trace outcome after)
    (uncancelled : outcome.Uncancelled) :
    ∃ fate, outcome = .ok fate ∧ ∃ deeds, Transcript trace deeds ∧
      Visited host settings topology now slot clocks deeds fate after := by
  obtain ⟨_, _, rfl, warned, onward⟩ := warned_of_ran ran
  have decides := Pass.ran_clocks_bind (Pass.ran_update_bind onward)
  split at decides
  next recent =>
    obtain ⟨rfl, rfl, rfl⟩ := Pass.ran_pure decides
    refine ⟨_, rfl, _, warned.append .nil, ?_⟩
    rw [List.append_nil]
    exact .recent named inactive registered recent
  next waited =>
    have due := Nat.lt_of_not_le waited
    obtain ⟨_, _, _, _, rfl, ⟨reply, rfl, told, rfl⟩, ended⟩ := Pass.ran_bind_returning decides uncancelled dropped_of_ran
    cases reply with
    | error failure =>
      obtain ⟨rfl, rfl, rfl⟩ := Pass.ran_pure ended
      refine ⟨_, rfl, _, warned.append (told.append .nil), ?_⟩
      rw [List.append_nil]
      exact .due named inactive registered due (.error failure)
    | ok value =>
      have ended : Pass.Ran (pure .expired) ((clocks.start member now).stop member) _ outcome after :=
        Pass.ran_update_bind ended
      obtain ⟨rfl, rfl, rfl⟩ := Pass.ran_pure ended
      refine ⟨_, rfl, _, warned.append (told.append .nil), ?_⟩
      rw [List.append_nil]
      exact .due named inactive registered due (.ok ())

theorem visited_of_ran {outcome : Outcome Fate}
    (ran : Pass.Ran (visit settings ⟨host⟩ topology now slot) clocks trace outcome after)
    (uncancelled : outcome.Uncancelled) :
    ∃ fate, outcome = .ok fate ∧ ∃ deeds, Transcript trace deeds ∧
      Visited host settings topology now slot clocks deeds fate after := by
  unfold visit at ran
  split at ran
  next unnamed =>
    obtain ⟨rfl, rfl, rfl⟩ := Pass.ran_pure ran
    exact ⟨.left, rfl, [], .nil, .unmanaged unnamed⟩
  next member named =>
    split at ran
    next busy =>
      obtain ⟨rfl, rfl, rfl⟩ := Pass.ran_pure ran
      exact ⟨.left, rfl, [], .nil, .active busy⟩
    next idle =>
      have inactive : slot.active = false := Bool.eq_false_iff.mpr idle
      split at ran
      next registered => exact idled_of_ran named inactive registered ran uncancelled
      next missing =>
        have gone := Bool.eq_false_iff.mpr missing
        obtain ⟨_, _, _, _, rfl, ⟨reply, rfl, told, rfl⟩, ended⟩ := Pass.ran_bind_returning ran uncancelled dropped_of_ran
        cases reply with
        | error failure | ok value =>
          obtain ⟨rfl, rfl, rfl⟩ := Pass.ran_pure ended
          refine ⟨_, rfl, _, told.append .nil, ?_⟩
          rw [List.append_nil]
          exact .orphan named inactive gone _

theorem visitedEach_of_ran {slots : List Slot} {outcome : Outcome (List (Slot × Fate))}
    (ran : Pass.Ran (visitEach settings ⟨host⟩ topology now slots) clocks trace outcome after)
    (uncancelled : outcome.Uncancelled) :
    ∃ fates, outcome = .ok fates ∧ ∃ deeds, Transcript trace deeds ∧
      VisitedEach host settings topology now slots clocks deeds fates after := by
  induction slots generalizing clocks trace outcome after with
  | nil =>
    obtain ⟨rfl, rfl, rfl⟩ := Pass.ran_pure ran
    exact ⟨[], rfl, [], .nil, .nil⟩
  | cons slot slots ih =>
    obtain ⟨fate, between, _, _, rfl, ⟨ahead, told, visited⟩, onward⟩ :=
      Pass.ran_bind_returning ran uncancelled visited_of_ran
    obtain ⟨others, last, _, _, rfl, ⟨behind, told', visits⟩, ended⟩ := Pass.ran_bind_returning onward uncancelled ih
    obtain ⟨rfl, rfl, rfl⟩ := Pass.ran_pure ended
    refine ⟨_, rfl, _, told.append (told'.append .nil), ?_⟩
    rw [List.append_nil]
    exact .cons visited visits

/-- The first listing of the slots on record. A pass lists them once at most. -/
def listingOf (deeds : List Deed) : Option (List Slot) :=
  deeds.findSome? fun
    | .call (.slots _) (.ok slots) => some slots
    | _ => none

/-- What dropping a slot came to, if it was tried. -/
def dropOf (name : String) (deeds : List Deed) : Option (Outcome Unit) :=
  deeds.findSome? fun
    | .call (.dropSlot _ dropped) reply => if dropped = name then some reply else none
    | _ => none

theorem dropOf_append (name : String) (ahead behind : List Deed) :
    dropOf name (ahead ++ behind) = (dropOf name ahead).or (dropOf name behind) := List.findSome?_append

@[simp] theorem dropOf_dropDeeds (host name other : String) (reply : Outcome Unit) :
    dropOf other (dropDeeds host name reply) = if name = other then some reply else none := by
  by_cases same : name = other <;> cases reply <;> simp [dropDeeds, dropOf, same]

@[simp] theorem dropOf_warnDeeds (name : String) (settings : SlotSettings) (slot : Slot) (member : Int) :
    dropOf name (warnDeeds settings slot member) = none := by
  unfold warnDeeds
  split <;> rfl

/-- What a pass makes of the slot of a member: by the member's clock before, whether the slot is dropped, what
becomes of it, and the clock after. -/
structure Told (settings : SlotSettings) (topology : Topology) (now : Nat) (slot : Slot) (id : Int)
    (since : Option Nat) (dropped : Option (Outcome Unit)) (fate : Fate) (clock : Option Nat) : Prop where
  due : dropped.isSome ↔ slot.active = false ∧
    (topology.hasStandby id = false ∨ settings.inactiveThreshold.nanos < now - since.getD now)
  orphaned : fate = .orphaned ↔ dropped = some (.ok ()) ∧ topology.hasStandby id = false
  expired : fate = .expired ↔ dropped = some (.ok ()) ∧ topology.hasStandby id = true
  idle : ∀ member, fate = .idle member ↔
    id = member ∧ slot.active = false ∧ topology.hasStandby id = true ∧ dropped ≠ some (.ok ())
  clock : fate = .idle id → clock = some (since.getD now)

variable {deeds : List Deed} {fate : Fate} {id : Int}

theorem Visited.told (visited : Visited host settings topology now slot clocks deeds fate after)
    (named : slot.member? = some id) :
    Told settings topology now slot id (clocks.get? id) (dropOf slot.name deeds) fate (after.get? id) := by
  cases visited with
  | unmanaged unnamed => rw [unnamed] at named; cases named
  | active busy => constructor <;> simp [busy, dropOf]
  | @orphan member owner inactive gone reply =>
    cases owner.symm.trans named
    cases reply <;> constructor <;> simp [inactive, gone, Except.isOk, Except.toBool]
  | @recent member owner inactive registered recent =>
    cases owner.symm.trans named
    constructor <;> simp_all
  | @due member owner inactive registered due reply =>
    cases owner.symm.trans named
    cases reply <;> constructor <;> simp_all [Except.isOk, Except.toBool, dropOf_append]

theorem Visited.left (visited : Visited host settings topology now slot clocks deeds fate after)
    (unnamed : slot.member? = none) : fate = .left := by
  cases visited with
  | unmanaged | active => rfl
  | orphan owner | recent owner | due owner => cases owner.symm.trans unnamed

theorem Visited.dropped (visited : Visited host settings topology now slot clocks deeds fate after) {name : String}
    (dropped : (dropOf name deeds).isSome) : slot.name = name ∧ slot.member?.isSome := by
  cases visited with
  | unmanaged | active => cases dropped
  | recent => rw [dropOf_warnDeeds] at dropped; cases dropped
  | orphan owner | due owner => simp_all [dropOf_append]

theorem Visited.elsewhere (visited : Visited host settings topology now slot clocks deeds fate after)
    (other : slot.member? ≠ some id) : after.get? id = clocks.get? id := by
  cases visited with
  | unmanaged | active | orphan => rfl
  | recent owner =>
    have different : id ≠ _ := fun same => other (same ▸ owner)
    simp [different]
  | due owner _ _ _ reply =>
    have different : id ≠ _ := fun same => other (same ▸ owner)
    cases reply <;> simp [different, Except.isOk, Except.toBool]

theorem VisitedEach.visited_slots {slots : List Slot} {fates : List (Slot × Fate)}
    (visits : VisitedEach host settings topology now slots clocks deeds fates after) : fates.map Prod.fst = slots := by
  induction visits with
  | nil => rfl
  | cons _ _ ih => rw [List.map_cons, ih]

theorem VisitedEach.left {slots : List Slot} {fates : List (Slot × Fate)}
    (visits : VisitedEach host settings topology now slots clocks deeds fates after) :
    ∀ entry ∈ fates, entry.1.member? = none → entry.2 = .left := by
  induction visits with
  | nil => simp
  | cons visited _ ih => exact List.forall_mem_cons.mpr ⟨visited.left, ih⟩

theorem VisitedEach.dropped {slots : List Slot} {fates : List (Slot × Fate)} {name : String}
    (visits : VisitedEach host settings topology now slots clocks deeds fates after)
    (dropped : (dropOf name deeds).isSome) : ∃ slot ∈ slots, slot.name = name ∧ slot.member?.isSome := by
  induction visits with
  | nil => cases dropped
  | cons visited _ ih =>
    rw [dropOf_append, Option.isSome_or, Bool.or_eq_true] at dropped
    rcases dropped with here | later
    · exact ⟨_, List.mem_cons_self, visited.dropped here⟩
    · obtain ⟨slot, member, found⟩ := ih later
      exact ⟨slot, List.mem_cons_of_mem _ member, found⟩

theorem VisitedEach.elsewhere {slots : List Slot} {fates : List (Slot × Fate)}
    (visits : VisitedEach host settings topology now slots clocks deeds fates after)
    (others : ∀ slot ∈ slots, slot.member? ≠ some id) : after.get? id = clocks.get? id := by
  induction visits with
  | nil => rfl
  | cons visited _ ih =>
    obtain ⟨other, others⟩ := List.forall_mem_cons.mp others
    rw [ih others, visited.elsewhere other]

theorem distinct_cons {slots : List Slot} (distinct : ((slot :: slots).filterMap Slot.member?).Nodup) :
    (∀ id, slot.member? = some id → ∀ other ∈ slots, other.member? ≠ some id) ∧ (slots.filterMap Slot.member?).Nodup := by
  cases named : slot.member? with
  | none =>
    rw [List.filterMap_cons_none named] at distinct
    exact ⟨nofun, distinct⟩
  | some member =>
    rw [List.filterMap_cons_some named] at distinct
    obtain ⟨fresh, distinct⟩ := List.nodup_cons.mp distinct
    refine ⟨?_, distinct⟩
    rintro _ ⟨⟩ other among same
    exact fresh (List.mem_filterMap.mpr ⟨other, among, same⟩)

/-- A pass deals with the slot of each member by that member's own clock. -/
theorem VisitedEach.told {slots : List Slot} {fates : List (Slot × Fate)}
    (visits : VisitedEach host settings topology now slots clocks deeds fates after)
    (distinct : (slots.filterMap Slot.member?).Nodup) :
    ∀ entry ∈ fates, ∀ id, entry.1.member? = some id →
      Told settings topology now entry.1 id (clocks.get? id) (dropOf entry.1.name deeds) entry.2 (after.get? id) := by
  induction visits with
  | nil => simp
  | @cons slot slots clocks ahead fate between behind others after visited rest ih =>
    obtain ⟨fresh, distinct⟩ := distinct_cons distinct
    rintro ⟨entry, became⟩ member id named
    rw [dropOf_append]
    rcases List.mem_cons.mp member with same | later
    · cases same
      have undropped : dropOf slot.name behind = none := by
        refine Option.not_isSome_iff_eq_none.mp fun dropped => ?_
        obtain ⟨other, among, same, _⟩ := rest.dropped dropped
        exact fresh id named other among ((congrArg Slot.memberOfName? same).trans named)
      rw [undropped, Option.or_none, rest.elsewhere (fresh id named)]
      exact visited.told named
    · have among : entry ∈ slots := rest.visited_slots ▸ List.mem_map_of_mem later
      have undropped : dropOf entry.name ahead = none := by
        refine Option.not_isSome_iff_eq_none.mp fun dropped => ?_
        obtain ⟨same, _⟩ := visited.dropped dropped
        exact fresh id ((congrArg Slot.memberOfName? same).trans named) entry among named
      have other : slot.member? ≠ some id := fun same => fresh id same entry among named
      rw [undropped, Option.none_or, ← visited.elsewhere other]
      exact ih distinct (entry, became) later id named

theorem VisitedEach.due_iff {slots : List Slot} {fates : List (Slot × Fate)}
    (visits : VisitedEach host settings topology now slots clocks deeds fates after)
    (distinct : (slots.filterMap Slot.member?).Nodup) (member : slot ∈ slots) (named : slot.member? = some id) :
    (dropOf slot.name deeds).isSome ↔ slot.active = false ∧
      (topology.hasStandby id = false ∨ settings.inactiveThreshold.nanos < now - (clocks.get? id).getD now) := by
  rw [← visits.visited_slots] at member
  obtain ⟨entry, among, rfl⟩ := List.mem_map.mp member
  exact (visits.told distinct entry among id named).due

/-- A slot without a member is never dropped. -/
theorem VisitedEach.undropped {slots : List Slot} {fates : List (Slot × Fate)}
    (visits : VisitedEach host settings topology now slots clocks deeds fates after) {slot : Slot}
    (unnamed : slot.member? = none) : dropOf slot.name deeds = none := by
  refine Option.not_isSome_iff_eq_none.mp fun dropped => ?_
  obtain ⟨other, _, same, named⟩ := visits.dropped dropped
  have alike : other.member? = slot.member? := congrArg Slot.memberOfName? same
  rw [alike, unnamed] at named
  cases named

theorem VisitedEach.idle_iff {slots : List Slot} {fates : List (Slot × Fate)}
    (visits : VisitedEach host settings topology now slots clocks deeds fates after)
    (distinct : (slots.filterMap Slot.member?).Nodup) :
    (∃ entry ∈ fates, entry.2 = .idle id) ↔ topology.hasStandby id = true ∧
      ∃ slot ∈ slots, slot.member? = some id ∧ slot.active = false ∧ dropOf slot.name deeds ≠ some (.ok ()) := by
  constructor
  · rintro ⟨entry, member, idle⟩
    cases named : entry.1.member? with
    | none => cases (visits.left entry member named).symm.trans idle
    | some owner =>
      obtain ⟨rfl, inactive, registered, kept⟩ := ((visits.told distinct entry member owner named).idle id).mp idle
      exact ⟨registered, entry.1, visits.visited_slots ▸ List.mem_map_of_mem member, named, inactive, kept⟩
  · rintro ⟨registered, slot, member, named, inactive, kept⟩
    rw [← visits.visited_slots] at member
    obtain ⟨entry, among, rfl⟩ := List.mem_map.mp member
    exact ⟨entry, among, ((visits.told distinct entry among id named).idle id).mpr ⟨rfl, inactive, registered, kept⟩⟩

theorem VisitedEach.clock {slots : List Slot} {fates : List (Slot × Fate)}
    (visits : VisitedEach host settings topology now slots clocks deeds fates after)
    (distinct : (slots.filterMap Slot.member?).Nodup) (idle : ∃ entry ∈ fates, entry.2 = .idle id) :
    after.get? id = some ((clocks.get? id).getD now) := by
  obtain ⟨entry, member, idle⟩ := idle
  cases named : entry.1.member? with
  | none => cases (visits.left entry member named).symm.trans idle
  | some owner =>
    have told := visits.told distinct entry member owner named
    obtain ⟨rfl, _⟩ := (told.idle id).mp idle
    exact told.clock idle

/-- What keeps a pass from listing the slots: a call before that or the listing itself failed, the node is not in its
catalog, or it is no primary there. Only then does the pass not fail. -/
inductive Barred (host : String) (deeds : List Deed) : Outcome DroppedSlots → Prop where
  | failed {made : Call} (needed : made = .connect host ∨ made = .listMembers host ∨ made = .slots host) (cause : Failure)
    (answered : .call made (.error cause) ∈ deeds) (failure : Failure) : Barred host deeds (.error failure)
  | absent {members : List Member} {failure : Failure} (read : surveyed deeds = some members)
    (absent : Topology.row ⟨members⟩ host = .error failure) : Barred host deeds (.error failure)
  | secondary {members : List Member} {row : Member} (read : surveyed deeds = some members)
    (own : Topology.row ⟨members⟩ host = .ok row) (secondary : row.isPrimary = false) : Barred host deeds (.ok {})

/-- A pass that lists the slots visits them all. Any other pass leaves them and the clocks alone. -/
theorem visits_of_ran {outcome : Outcome DroppedSlots} (ran : Pass.Ran (reap host settings now) clocks trace outcome after)
    (uncancelled : outcome.Uncancelled) :
    (∃ deeds, Transcript trace deeds ∧ listingOf deeds = none ∧ (∀ name, dropOf name deeds = none) ∧ after = clocks ∧
        Barred host deeds outcome) ∨
      ∃ members slots visits fates between,
        Transcript trace (lookDeeds host members ++ [.prompt .stopRequested false, .call (.slots host) (.ok slots)] ++ visits) ∧
          VisitedEach host settings ⟨members⟩ now slots clocks visits fates between ∧
          outcome = .ok { orphaned := named fates .orphaned, expired := named fates .expired } ∧
          after = between.keepOnly fun id => fates.any (·.2 = .idle id) := by
  rcases Pass.ran_survey_bind ran uncancelled with ⟨deeds, _, found, told, rfl, rfl⟩ | ⟨members, _, second, rfl, looked, onward⟩
  · cases found with
    | unconnected cause failure => exact Or.inl ⟨_, told, rfl, fun _ => rfl, rfl, .failed (.inl rfl) cause (.tail _ (.head _)) _⟩
    | unlisted cause failure =>
      exact Or.inl ⟨_, told, rfl, fun _ => rfl, rfl, .failed (.inr (.inl rfl)) cause (.tail _ (.tail _ (.head _))) _⟩
  rcases Pass.ran_liftExcept_bind onward with ⟨failure, absent, rfl, rfl, rfl⟩ | ⟨row, own, onward⟩
  · exact Or.inl ⟨_, looked.append .nil, rfl, fun _ => rfl, rfl, .absent rfl absent⟩
  cases primary : row.isPrimary with
  | false =>
    rw [primary] at onward
    obtain ⟨rfl, rfl, rfl⟩ := Pass.ran_pure onward
    exact Or.inl ⟨_, looked.append .nil, rfl, fun _ => rfl, rfl, .secondary rfl own primary⟩
  | true =>
    rw [primary] at onward
    have listing : Pass.Ran (inContext "list replication slots" (Pass.act (guarded (Session.slots ⟨host⟩))) >>= fun slots => do
        let fates ← visitEach settings ⟨host⟩ ⟨members⟩ now slots
        Pass.update (·.keepOnly fun id => fates.any (·.2 = .idle id))
        return { orphaned := named fates .orphaned, expired := named fates .expired }) clocks second outcome after := onward
    rw [Pass.inContext_act] at listing
    rcases Pass.ran_act_bind listing with ⟨failure, rfl, rfl, lists⟩ | ⟨slots, _, _, rfl, lists, visiting⟩
    · obtain ⟨reply, same, guards⟩ := ran_inContext lists
      have own : reply.Uncancelled := .of_within (same ▸ uncancelled.error)
      obtain ⟨_, inside, told⟩ := transcript_unstopped guards own
      cases reply with
      | ok slots => cases same
      | error cause =>
        exact Or.inl ⟨_, looked.append (told _ (transcript_answered inside)), rfl, fun _ => rfl, rfl,
          .failed (.inr (.inr rfl)) cause (by simp) failure⟩
    · obtain ⟨_, inside, told⟩ := transcript_guarded (returned_inContext lists)
      have listed := looked.append (told _ (transcript_answered inside))
      obtain ⟨fates, between, _, _, rfl, ⟨visits, visited, each⟩, ended⟩ :=
        Pass.ran_bind_returning visiting uncancelled visitedEach_of_ran
      have ended : Pass.Ran (pure { orphaned := named fates .orphaned, expired := named fates .expired })
        (between.keepOnly fun id => fates.any (·.2 = .idle id)) _ outcome after := Pass.ran_update_bind ended
      obtain ⟨rfl, rfl, rfl⟩ := Pass.ran_pure ended
      refine Or.inr ⟨members, slots, visits, fates, between, ?_, each, rfl, rfl⟩
      rw [List.append_nil, ← List.append_assoc]
      exact listed.append visited

end IdleSlots

end QuorumWarden
