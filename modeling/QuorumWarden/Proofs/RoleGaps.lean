import QuorumWarden.Proofs.DeadMemberHistory
import QuorumWarden.Proofs.IdleSlotHistory
import QuorumWarden.Proofs.PassRules

/-! Passes of a node that does not lead all the time. A pass that finds the node to be no primary leaves the clocks
as they are, so that a grace period runs on while nobody watches. -/

namespace QuorumWarden

/-- Only such calls are asked for. -/
def Calling (allowed : Call → Prop) (request : Request) (_ : Unit) : Prop :=
  ∀ made, request.call? = some made → allowed made

namespace Action

variable {α β : Type} {allowed : Call → Prop} {action : Action α}

/-- The action asks for such calls only, whatever it is answered. -/
abbrev Confined (allowed : Call → Prop) (action : Action α) : Prop :=
  Holds Law.free (Calling allowed) (fun _ _ => True) (fun _ _ => True) action ()

theorem confined_request {made : Call} (may : allowed made) : Confined allowed (request made) := by
  refine Holds.request made ?_ (fun _ _ _ => trivial) fun _ _ _ => trivial
  rintro _ ⟨⟩
  exact may

theorem confined_prompt (asked : Prompt) : Confined allowed (ExceptT.lift (Procedure.prompt asked)) :=
  Holds.lift ⟨nofun, fun _ _ _ => trivial⟩

theorem Confined.guarded (confined : Confined allowed action) : Confined allowed (guarded action) := by
  refine Holds.guarded ⟨?_, fun _ _ _ _ _ => trivial, fun _ _ _ _ _ => trivial⟩ nofun
    (fun _ _ _ => ⟨rfl, fun _ => trivial⟩) confined
  intro wait _ asked
  cases wait <;> exact asked

theorem Confined.settled (confined : Confined allowed action) : Confined allowed (settled action) := by
  refine Holds.settled (confined.mono (fun _ _ asked => asked) (fun _ _ _ => trivial) fun failure _ _ => ?_)
  split <;> trivial

theorem confined_connect {host : String} (dials : allowed (.connect host)) :
    Confined allowed (Session.connect host) :=
  Holds.bind ((confined_request dials).imp fun _ _ _ => Holds.pure trivial)

theorem confined_survey {host : String} (dials : allowed (.connect host)) (lists : allowed (.listMembers host)) :
    Confined allowed (Node.survey host) := by
  have connects : Holds Law.free (Calling allowed) (fun session _ => session = ⟨host⟩) (fun _ _ => True)
      (Node.connect host) () :=
    Holds.inContext (Holds.bind ((confined_request dials).imp fun _ _ _ => Holds.pure rfl))
  refine connects.andThen fun session _ same => ?_
  subst same
  have fetches : Confined allowed (Topology.fetch ⟨host⟩) :=
    Holds.inContext (Holds.bind ((confined_request lists).imp fun _ _ _ => Holds.pure trivial))
  exact fetches.andThen fun _ _ _ => Holds.pure trivial

end Action

open QuorumWarden.Action

namespace Sweep

variable {α : Type}

/-- The pass read the catalog and found the node to be a primary. -/
def leads (sweep : Sweep α) (host : String) : Bool :=
  (Topology.row ⟨sweep.members⟩ host).toOption.any Member.isPrimary

/-- The pass read the catalog and found the node to be something else. -/
def follows (sweep : Sweep α) (host : String) : Bool :=
  (Topology.row ⟨sweep.members⟩ host).toOption.any (!·.isPrimary)

/-- The calls that the pass asked for, answered or not. -/
def calls (sweep : Sweep α) : List Call := sweep.trace.filterMap (·.request.call?)

end Sweep

namespace Pass

variable {α β : Type} {allowed : Call → Prop} {stands : Clocks → Prop} {clocks after : Clocks}

/-- The pass asks for such calls only, and what is true of the clocks stays true. -/
abbrev Minds (allowed : Call → Prop) (stands : Clocks → Prop) (pass : Pass α) (clocks : Clocks) : Prop :=
  Holds Law.free (Calling allowed) (fun _ clocks _ => stands clocks) (fun _ clocks _ => stands clocks) pass clocks ()

theorem Minds.bind {pass : Pass α} {next : α → Pass β} (minds : Minds allowed stands pass clocks)
    (onward : ∀ value clocks, stands clocks → Minds allowed stands (next value) clocks) :
    Minds allowed stands (pass >>= next) clocks :=
  minds.andThen fun value clocks _ stood => onward value clocks stood

theorem minds_act {action : Action α} (stood : stands clocks) (confined : Confined allowed action) :
    Minds allowed stands (act action) clocks :=
  Holds.act (confined.mono (fun _ _ asked => asked) (fun _ _ _ => stood) fun _ _ _ => stood)

theorem Minds.ran {pass : Pass α} {trace : List (Program.Event Request.Reply)} {outcome : Outcome α}
    (minds : Minds allowed stands pass clocks) (ran : Ran pass clocks trace outcome after) :
    stands after ∧ ∀ event ∈ trace, ∀ made, event.request.call? = some made → allowed made := by
  have ended := minds.run.steps ran
  refine ⟨?_, fun event member made called => ?_⟩
  · cases outcome with
    | ok value => exact ended
    | error failure => exact ended
  · obtain ⟨_, asked⟩ := minds.run.asked ran event member
    exact asked made called

/-- A pass that is taken at its instant. It may come to anything. -/
def Taken (pass : Nat → Pass α) (clocks : Clocks) (sweep : Sweep α) (after : Clocks) : Prop :=
  Ran (pass sweep.now) clocks sweep.trace sweep.outcome after

/-- A pass that is played to its end has been taken. -/
theorem taken_of_play {σ : Type} {answer : (request : Request) → σ → Option (request.Reply × σ)} {state : σ}
    {pass : Nat → Pass α} {now : Nat} {outcome : Outcome α}
    (ended : (((pass now).runFrom clocks).play answer state).2.1 = .done (outcome, after)) :
    Taken pass clocks ⟨now, (((pass now).runFrom clocks).play answer state).1, outcome⟩ after := by
  have steps : Program.Steps (fun _ _ _ _ => True) ((pass now).runFrom clocks) state
      (((pass now).runFrom clocks).play answer state).1 (((pass now).runFrom clocks).play answer state).2.1
      (((pass now).runFrom clocks).play answer state).2.2 := Program.play_steps (fun _ _ _ _ _ => trivial) _ _
  rw [ended] at steps
  exact steps.freed

/-- A pass of a primary. On any other node it comes to nothing. -/
def leading (host : String) (nothing : α) (rest : Nat → Session × Topology → Pass α) (now : Nat) : Pass α := do
  let found ← act (guarded (Node.survey host))
  let row ← act (liftExcept (found.2.row host))
  if !row.isPrimary then return nothing
  rest now found

variable {host : String} {nothing : α} {rest : Nat → Session × Topology → Pass α} {sweep : Sweep α}

/-- A pass looks at the catalog and leaves it at that, or it leads and goes on from what it found. -/
theorem Taken.cases (taken : Taken (leading host nothing rest) clocks sweep after) :
    (after = clocks ∧ ∀ made ∈ sweep.calls, made = .connect host ∨ made = .listMembers host) ∨
      sweep.leads host = true ∧ ∃ trace, Ran (rest sweep.now (⟨host⟩, ⟨sweep.members⟩)) clocks trace sweep.outcome after ∧
        ∀ made ∈ sweep.calls, made = .connect host ∨ made = .listMembers host ∨
          ∃ event ∈ trace, event.request.call? = some made := by
  have looking : Confined (fun made => made = .connect host ∨ made = .listMembers host) (guarded (Node.survey host)) :=
    (confined_survey (Or.inl rfl) (Or.inr rfl)).guarded
  rcases ran_act_bind taken with ⟨failure, _, rfl, surveys⟩ | ⟨found, first, second, split, surveys, onward⟩
  · refine Or.inl ⟨rfl, fun made asks => ?_⟩
    obtain ⟨event, member, called⟩ := List.mem_filterMap.mp asks
    exact (looking.run.asked surveys event member).elim fun _ asked => asked made called
  · have looked : ∀ event ∈ first, ∀ made, event.request.call? = some made →
        made = .connect host ∨ made = .listMembers host :=
      fun event member made called => (looking.run.asked surveys event member).elim fun _ asked => asked made called
    obtain ⟨inner, inside, told⟩ := transcript_guarded surveys
    obtain ⟨deeds, read, surveyed⟩ := Node.ran_survey inside
    cases surveyed with
    | listed members =>
      have known : sweep.members = members := by
        rw [Sweep.members, Sweep.deeds, split, List.filterMap_append, (told _ read).filterMap]
        rfl
      subst known
      rcases ran_liftExcept_bind onward with ⟨_, _, rfl, _, rfl⟩ | ⟨row, own, onward⟩
      · refine Or.inl ⟨rfl, fun made asks => ?_⟩
        obtain ⟨event, member, called⟩ := List.mem_filterMap.mp asks
        rw [split, List.append_nil] at member
        exact looked event member made called
      cases primary : row.isPrimary with
      | false =>
        rw [primary] at onward
        obtain ⟨rfl, _, rfl⟩ := ran_pure onward
        refine Or.inl ⟨rfl, fun made asks => ?_⟩
        obtain ⟨event, member, called⟩ := List.mem_filterMap.mp asks
        rw [split, List.append_nil] at member
        exact looked event member made called
      | true =>
        rw [primary] at onward
        have leads : sweep.leads host = true := by
          simp only [Sweep.leads, own, Except.toOption, Option.any_some, primary]
        refine Or.inr ⟨leads, second, onward, fun made asks => ?_⟩
        obtain ⟨event, member, called⟩ := List.mem_filterMap.mp asks
        rw [split] at member
        rcases List.mem_append.mp member with early | late
        · exact (looked event early made called).imp_right Or.inl
        · exact Or.inr (Or.inr ⟨event, late, called⟩)

theorem Taken.unled (taken : Taken (leading host nothing rest) clocks sweep after)
    (unled : sweep.leads host = false) : after = clocks := by
  rcases taken.cases with ⟨same, _⟩ | ⟨leads, _⟩
  · exact same
  · rw [unled] at leads
    cases leads

end Pass

/-- Passes that leave the clocks alone might as well not have been. -/
theorem Passes.filter {α : Type} {step narrower : Clocks → Sweep α → Clocks → Prop} {keep : Sweep α → Bool}
    {sweeps : List (Sweep α)} {clocks : Clocks} (passes : Passes step sweeps clocks)
    (idle : ∀ sweep before after, keep sweep = false → step before sweep after → after = before)
    (kept : ∀ sweep ∈ sweeps, keep sweep = true → ∀ before after, step before sweep after → narrower before sweep after) :
    Passes narrower (sweeps.filter keep) clocks := by
  induction passes with
  | start => exact .start
  | @next earlier clocks sweep after _ taken ih =>
    have before := ih fun sweep member => kept sweep (List.mem_append_left _ member)
    rw [List.filter_append]
    cases keeps : keep sweep with
    | false =>
      cases idle sweep clocks after keeps taken
      rw [List.filter_cons_of_neg (by simp [keeps]), List.filter_nil, List.append_nil]
      exact before
    | true =>
      rw [List.filter_cons_of_pos keeps, List.filter_nil]
      exact before.next (kept sweep (by simp) keeps clocks after taken)

/-- Every clock was set at the present instant or before. -/
def Clocks.CarriedOr (now : Nat) (before later : Clocks) : Prop :=
  ∀ id since, later.get? id = some since → since = now ∨ before.get? id = some since

namespace Clocks.CarriedOr

variable {now : Nat} {before later : Clocks}

theorem refl : CarriedOr now before before := fun _ _ runs => Or.inr runs

theorem restart (carried : CarriedOr now before later) (id : Int) : CarriedOr now before (later.restart id now) := by
  intro other since runs
  rw [get?_restart] at runs
  split at runs
  · exact Or.inl (Option.some.inj runs).symm
  · exact carried other since runs

theorem start (carried : CarriedOr now before later) (id : Int) : CarriedOr now before (later.start id now) := by
  unfold Clocks.start
  split
  · exact carried
  · exact carried.restart id

theorem keepOnly (carried : CarriedOr now before later) (keep : Int → Bool) :
    CarriedOr now before (later.keepOnly keep) := by
  intro other since runs
  rw [get?_keepOnly] at runs
  split at runs
  · exact carried other since runs
  · cases runs

theorem stop (carried : CarriedOr now before later) (id : Int) : CarriedOr now before (later.stop id) :=
  carried.keepOnly (· != id)

/-- What has run for some time was not set just now. -/
theorem carried (carried : CarriedOr now before later) {id : Int} (runs : 0 < later.elapsed id now) :
    ∃ since, before.get? id = some since ∧ later.elapsed id now = now - since := by
  unfold elapsed at runs ⊢
  cases clock : later.get? id with
  | none => simp [clock] at runs
  | some since =>
    rw [clock] at runs
    rcases carried id since clock with rfl | old
    · simp at runs
    · exact ⟨since, old, rfl⟩

end Clocks.CarriedOr

/-- Passes of a node, then some in which it does not lead, then the first one in which it leads again. -/
structure Comeback {α : Type} (host : String) (step : Clocks → Sweep α → Clocks → Prop) (earlier gap : List (Sweep α))
    (sweep : Sweep α) (clocks after : Clocks) : Prop where
  passes : Passes step (earlier ++ gap) clocks
  unled : ∀ pass ∈ gap, pass.leads host = false
  taken : step clocks sweep after
  leads : sweep.leads host = true

section

variable {α : Type} {host : String} {step narrower : Clocks → Sweep α → Clocks → Prop}
  {earlier gap sweeps : List (Sweep α)} {sweep : Sweep α} {clocks after : Clocks}

/-- The gap leaves no trace in the clocks. -/
theorem Comeback.led (comeback : Comeback host step earlier gap sweep clocks after)
    (idle : ∀ sweep before after, sweep.leads host = false → step before sweep after → after = before)
    (kept : ∀ sweep ∈ earlier, sweep.leads host = true →
      ∀ before after, step before sweep after → narrower before sweep after) :
    Passes narrower (earlier.filter (·.leads host)) clocks := by
  have none : gap.filter (·.leads host) = [] :=
    List.filter_eq_nil_iff.mpr fun pass member => by simp [comeback.unled pass member]
  have all : Passes narrower ((earlier ++ gap).filter (·.leads host)) clocks := by
    refine comeback.passes.filter idle fun sweep member leads => ?_
    rcases List.mem_append.mp member with early | late
    · exact kept sweep early leads
    · rw [comeback.unled sweep late] at leads
      cases leads
  rwa [List.filter_append, none, List.append_nil] at all

theorem Passes.clock_set (passes : Passes step sweeps clocks)
    (carried : ∀ sweep before after, step before sweep after → Clocks.CarriedOr sweep.now before after) :
    ∀ id since, clocks.get? id = some since → ∃ sweep ∈ sweeps, sweep.now = since := by
  induction passes with
  | start => nofun
  | @next earlier clocks sweep after _ taken ih =>
    intro id since runs
    rcases carried sweep clocks after taken id since runs with rfl | old
    · exact ⟨sweep, by simp, rfl⟩
    · obtain ⟨pass, member, same⟩ := ih id since old
      exact ⟨pass, List.mem_append_left _ member, same⟩

theorem Sweep.leads_iff : sweep.leads host = true ↔
    surveyed sweep.deeds = some sweep.members ∧
      ∃ row, Topology.row ⟨sweep.members⟩ host = .ok row ∧ row.isPrimary = true := by
  unfold Sweep.leads
  constructor
  · intro leads
    cases own : Topology.row ⟨sweep.members⟩ host with
    | error failure => simp [own, Except.toOption] at leads
    | ok row =>
      refine ⟨?_, row, rfl, by simpa [own, Except.toOption] using leads⟩
      have listed := Topology.mem_of_row own
      unfold Sweep.members at listed ⊢
      cases read : surveyed sweep.deeds with
      | none => simp [read] at listed
      | some members => rfl
  · rintro ⟨_, row, own, primary⟩
    simp [own, Except.toOption, primary]

end

namespace DeadMembers

variable {host : String} {session : Session} {threshold : Duration} {now : Nat} {standby : Member}
  {before clocks after : Clocks} {earlier gap : List (Sweep (List Int))} {sweep : Sweep (List Int)}

/-- No member is unregistered but one that has been waited for long enough, by these clocks. -/
def Overdue (threshold : Duration) (now : Nat) (clocks : Clocks) (made : Call) : Prop :=
  ∀ host member, made = .unregister host member →
    ∃ since, clocks.get? member.id = some since ∧ threshold.nanos ≤ now - since

theorem minds_remove (positive : 0 < threshold.nanos) (carried : Clocks.CarriedOr now before clocks) :
    Pass.Minds (Overdue threshold now before) (Clocks.CarriedOr now before)
      (remove session threshold now standby) clocks := by
  have carried := carried.start standby.id
  refine Pass.Holds.bind (Pass.Holds.update (Pass.Holds.bind (Pass.Holds.read ?_)))
  split
  next => exact Pass.Holds.pure carried
  next waited =>
    have due := Nat.le_of_not_lt waited
    have overdue : Overdue threshold now before (.unregister session.host standby) := by
      rintro _ _ ⟨⟩
      -- a clock that this pass has started has not run yet, so the one that is due is an older one
      obtain ⟨since, old, elapsed⟩ := carried.carried (positive.trans_le due)
      exact ⟨since, old, elapsed ▸ due⟩
    refine (Pass.minds_act carried (confined_request overdue).guarded.settled).bind fun result later carried => ?_
    cases result with
    | error refusal => exact Pass.Holds.pure carried
    | ok value =>
      refine Pass.Holds.bind (Pass.Holds.update ?_)
      exact (Pass.minds_act (carried.stop standby.id) (confined_prompt _)).bind fun _ _ carried => Pass.Holds.pure carried

theorem minds_visitEach (positive : 0 < threshold.nanos) (carried : Clocks.CarriedOr now before clocks)
    (standbys : List Member) :
    Pass.Minds (Overdue threshold now before) (Clocks.CarriedOr now before)
      (visitEach session threshold now standbys) clocks := by
  induction standbys generalizing clocks with
  | nil => exact Pass.Holds.pure carried
  | cons standby standbys ih =>
    have visits : Pass.Minds (Overdue threshold now before) (Clocks.CarriedOr now before)
        (visit session threshold now standby) clocks := by
      refine (Pass.minds_act carried (confined_connect nofun).guarded.settled).bind fun result later carried => ?_
      cases result with
      | ok value => exact Pass.Holds.bind (Pass.Holds.update (Pass.Holds.pure (carried.restart standby.id)))
      | error failure => exact minds_remove positive carried
    refine visits.bind fun removed later carried => ?_
    exact (ih carried).bind fun _ _ carried => Pass.Holds.pure carried

/-- A pass after it has found the node to be a primary. -/
def watch (threshold : Duration) (now : Nat) (found : Session × Topology) : Pass (List Int) := do
  let removed ← visitEach found.1 threshold now found.2.standbys
  Pass.update (·.keepOnly found.2.contains)
  return removed

theorem reap_eq (host : String) (threshold : Duration) : reap host threshold = Pass.leading host [] (watch threshold) := rfl

theorem minds_watch (positive : 0 < threshold.nanos) (carried : Clocks.CarriedOr now before clocks)
    (found : Session × Topology) :
    Pass.Minds (Overdue threshold now before) (Clocks.CarriedOr now before) (watch threshold now found) clocks := by
  refine (minds_visitEach positive carried _).bind fun removed later carried => ?_
  exact Pass.Holds.bind (Pass.Holds.update (Pass.Holds.pure (carried.keepOnly _)))

theorem taken_minds (positive : 0 < threshold.nanos) (taken : Pass.Taken (reap host threshold) clocks sweep after) :
    Clocks.CarriedOr sweep.now clocks after ∧ ∀ made ∈ sweep.calls, Overdue threshold sweep.now clocks made := by
  rw [reap_eq] at taken
  rcases taken.cases with ⟨rfl, looked⟩ | ⟨_, trace, ran, asked⟩
  · refine ⟨.refl, fun made asks => ?_⟩
    rcases looked made asks with rfl | rfl <;> exact nofun
  · obtain ⟨carried, confined⟩ := (minds_watch positive .refl _).ran ran
    refine ⟨carried, fun made asks => ?_⟩
    rcases asked made asks with rfl | rfl | ⟨event, member, called⟩
    · exact nofun
    · exact nofun
    · exact confined event member made called

theorem reaped_of_taken (taken : Pass.Taken (reap host threshold) clocks sweep after) (leads : sweep.leads host = true)
    (steady : sweep.outcome.Uncancelled ∧ (sweep.members.map Member.id).Nodup) :
    Reaped host threshold clocks sweep after := by
  obtain ⟨listed, primary⟩ := Sweep.leads_iff.mp leads
  exact ⟨taken, steady.1, listed, steady.2, primary⟩

/-- A call to unregister a member goes by a clock that an earlier pass has set. -/
theorem unregistered_by_clock (positive : 0 < threshold.nanos)
    (comeback : Comeback host (Pass.Taken (reap host threshold)) earlier gap sweep clocks after) {asker : String}
    {member : Member} (asks : .unregister asker member ∈ sweep.calls) :
    ∃ pass ∈ earlier, pass.leads host = true ∧ clocks.get? member.id = some pass.now ∧
      threshold.nanos ≤ sweep.now - pass.now := by
  have led := comeback.led (fun _ _ _ unled taken => Pass.Taken.unled taken unled) fun _ _ _ _ _ taken => taken
  obtain ⟨since, runs, due⟩ := (taken_minds positive comeback.taken).2 _ asks asker member rfl
  obtain ⟨pass, among, rfl⟩ := led.clock_set (fun _ _ _ taken => (taken_minds positive taken).1) _ _ runs
  obtain ⟨early, leads⟩ := List.mem_filter.mp among
  exact ⟨pass, early, leads, runs, due⟩

theorem unregistered_iff_overdue (positive : 0 < threshold.nanos)
    (comeback : Comeback host (Pass.Taken (reap host threshold)) earlier gap sweep clocks after)
    (steady : ∀ pass ∈ earlier ++ [sweep], pass.leads host = true →
      pass.outcome.Uncancelled ∧ (pass.members.map Member.id).Nodup) (id : Int) :
    (sweep.removal? id).isSome ↔ ∃ failure since, sweep.probe? id = some (.error failure) ∧
      since? id (stretch id (earlier.filter (·.leads host))) = some since ∧ threshold.nanos ≤ sweep.now - since := by
  have led : Passes (Reaped host threshold) _ clocks :=
    comeback.led (fun _ _ _ unled taken => Pass.Taken.unled taken unled) fun pass member leads _ _ taken =>
      reaped_of_taken taken leads (steady pass (List.mem_append_left _ member) leads)
  have reaped := reaped_of_taken comeback.taken comeback.leads (steady sweep (by simp) comeback.leads)
  obtain ⟨_, _, tells⟩ := reaped.told
  obtain ⟨_, told, _⟩ := tells id
  rw [told.tried_iff, clock_of_passes led id]
  apply exists_congr
  intro failure
  rw [exists_and_left]
  apply and_congr_right
  intro _
  cases since? id (stretch id (earlier.filter (·.leads host))) with
  | none => simp [positive.ne']
  | some since => simp

end DeadMembers

namespace IdleSlots

variable {host : String} {session : Session} {settings : SlotSettings} {topology : Topology} {now : Nat} {slot : Slot}
  {before clocks after : Clocks} {earlier gap : List (Sweep DroppedSlots)} {sweep : Sweep DroppedSlots}

/-- No slot of a standby is dropped but one that has been waited for long enough, by these clocks. -/
def Overdue (settings : SlotSettings) (topology : Topology) (now : Nat) (clocks : Clocks) (made : Call) : Prop :=
  ∀ host name id, made = .dropSlot host name → Slot.memberOfName? name = some id → topology.hasStandby id = true →
    ∃ since, clocks.get? id = some since ∧ settings.inactiveThreshold.nanos < now - since

/-- Slots are listed, and one is dropped that is named after a member who is no standby, or who has been waited for
long enough, by these clocks. -/
def Warranted (settings : SlotSettings) (topology : Topology) (now : Nat) (clocks : Clocks) (made : Call) : Prop :=
  (∃ host, made = .slots host) ∨ ∃ host name id, made = .dropSlot host name ∧ Slot.memberOfName? name = some id ∧
    (topology.hasStandby id = false ∨
      ∃ since, clocks.get? id = some since ∧ settings.inactiveThreshold.nanos < now - since)

theorem Warranted.overdue {made : Call} (warranted : Warranted settings topology now before made) :
    Overdue settings topology now before made := by
  rintro _ name id rfl named registered
  obtain ⟨_, same⟩ | ⟨_, _, member, same, owned, due⟩ := warranted
  · cases same
  · cases same
    cases named.symm.trans owned
    exact due.resolve_left (by simp [registered])

theorem minds_drop (carried : Clocks.CarriedOr now before clocks)
    (warranted : Warranted settings topology now before (.dropSlot session.host slot.name)) :
    Pass.Minds (Warranted settings topology now before) (Clocks.CarriedOr now before) (drop session slot.name) clocks := by
  have drops : Confined (Warranted settings topology now before)
      (inContext ("drop replication slot " ++ slot.name) (guarded (session.dropSlot slot.name))) :=
    Holds.inContext (confined_request warranted).guarded
  refine (Pass.minds_act carried drops.settled).bind fun result later carried => ?_
  cases result with
  | error failure => exact Pass.Holds.pure carried
  | ok value => exact (Pass.minds_act carried (confined_prompt _)).bind fun _ _ carried => Pass.Holds.pure carried

theorem minds_warned (carried : Clocks.CarriedOr now before clocks) {member : Int} {next : Pass Fate}
    (onward : ∀ later, Clocks.CarriedOr now before later →
      Pass.Minds (Warranted settings topology now before) (Clocks.CarriedOr now before) next later) :
    Pass.Minds (Warranted settings topology now before) (Clocks.CarriedOr now before) (do
      if settings.walWarnMegabytes < slot.retainedMegabytes then
        Pass.act (ExceptT.lift (Procedure.notice (.slotRetains slot.name member slot.retainedMegabytes)))
      next) clocks := by
  split
  next => exact (Pass.minds_act carried (confined_prompt _)).bind fun _ later carried => onward later carried
  next => exact onward clocks carried

theorem minds_visitIdle (carried : Clocks.CarriedOr now before clocks) {member : Int} (named : slot.member? = some member) :
    Pass.Minds (Warranted settings topology now before) (Clocks.CarriedOr now before)
      (visitIdle settings session now slot member) clocks := by
  refine minds_warned carried fun clocks carried => ?_
  have carried := carried.start member
  refine Pass.Holds.bind (Pass.Holds.update (Pass.Holds.bind (Pass.Holds.read ?_)))
  split
  next => exact Pass.Holds.pure carried
  next waited =>
    have due := Nat.lt_of_not_le waited
    obtain ⟨since, old, elapsed⟩ := carried.carried ((Nat.zero_le _).trans_lt due)
    have warranted : Warranted settings topology now before (.dropSlot session.host slot.name) :=
      Or.inr ⟨_, _, member, rfl, named, Or.inr ⟨since, old, elapsed ▸ due⟩⟩
    refine (minds_drop carried warranted).bind fun worked later carried => ?_
    cases worked with
    | false => exact Pass.Holds.pure carried
    | true => exact Pass.Holds.bind (Pass.Holds.update (Pass.Holds.pure (carried.stop member)))

theorem minds_visit (carried : Clocks.CarriedOr now before clocks) :
    Pass.Minds (Warranted settings topology now before) (Clocks.CarriedOr now before)
      (visit settings session topology now slot) clocks := by
  unfold visit
  split
  next => exact Pass.Holds.pure carried
  next member named =>
    split
    next => exact Pass.Holds.pure carried
    next =>
      split
      next => exact minds_visitIdle carried named
      next missing =>
        have warranted : Warranted settings topology now before (.dropSlot session.host slot.name) :=
          Or.inr ⟨_, _, member, rfl, named, Or.inl (Bool.eq_false_iff.mpr missing)⟩
        refine (minds_drop carried warranted).bind fun worked later carried => ?_
        cases worked <;> exact Pass.Holds.pure carried

theorem minds_visitEach (carried : Clocks.CarriedOr now before clocks) (slots : List Slot) :
    Pass.Minds (Warranted settings topology now before) (Clocks.CarriedOr now before)
      (visitEach settings session topology now slots) clocks := by
  induction slots generalizing clocks with
  | nil => exact Pass.Holds.pure carried
  | cons slot slots ih =>
    refine (minds_visit carried).bind fun fate later carried => ?_
    exact (ih carried).bind fun _ _ carried => Pass.Holds.pure carried

/-- A pass after it has found the node to be a primary. -/
def watch (settings : SlotSettings) (now : Nat) (found : Session × Topology) : Pass DroppedSlots := do
  let slots ← inContext "list replication slots" (Action.guarded found.1.slots)
  let fates ← visitEach settings found.1 found.2 now slots
  Pass.update (·.keepOnly fun id => fates.any (·.2 = .idle id))
  return { orphaned := named fates .orphaned, expired := named fates .expired }

theorem reap_eq (host : String) (settings : SlotSettings) :
    reap host settings = Pass.leading host {} (watch settings) := rfl

theorem minds_watch (carried : Clocks.CarriedOr now before clocks) (found : Session × Topology) :
    Pass.Minds (Warranted settings found.2 now before) (Clocks.CarriedOr now before) (watch settings now found) clocks := by
  have asks : Confined (Warranted settings found.2 now before) (request (.slots found.1.host)) :=
    confined_request (Or.inl ⟨_, rfl⟩)
  have lists : Pass.Minds (Warranted settings found.2 now before) (Clocks.CarriedOr now before)
      (inContext "list replication slots" (Pass.act (Action.guarded found.1.slots))) clocks := by
    rw [Pass.inContext_act]
    exact Pass.minds_act carried (Holds.inContext asks.guarded)
  refine lists.bind fun slots later carried => ?_
  refine (minds_visitEach carried slots).bind fun fates later carried => ?_
  exact Pass.Holds.bind (Pass.Holds.update (Pass.Holds.pure (carried.keepOnly _)))

/-- All that a pass asks for, however it ends. -/
theorem taken_warranted (taken : Pass.Taken (reap host settings) clocks sweep after) :
    Clocks.CarriedOr sweep.now clocks after ∧ ∀ made ∈ sweep.calls, made = .connect host ∨ made = .listMembers host ∨
      Warranted settings ⟨sweep.members⟩ sweep.now clocks made := by
  rw [reap_eq] at taken
  rcases taken.cases with ⟨rfl, looked⟩ | ⟨_, trace, ran, asked⟩
  · exact ⟨.refl, fun made asks => (looked made asks).imp_right Or.inl⟩
  · obtain ⟨carried, confined⟩ := (minds_watch .refl _).ran ran
    refine ⟨carried, fun made asks => (asked made asks).imp_right (Or.imp_right ?_)⟩
    rintro ⟨event, member, called⟩
    exact confined event member made called

theorem taken_minds (taken : Pass.Taken (reap host settings) clocks sweep after) :
    Clocks.CarriedOr sweep.now clocks after ∧
      ∀ made ∈ sweep.calls, Overdue settings ⟨sweep.members⟩ sweep.now clocks made := by
  obtain ⟨carried, warranted⟩ := taken_warranted taken
  refine ⟨carried, fun made asks => ?_⟩
  rcases warranted made asks with rfl | rfl | warranted
  · exact nofun
  · exact nofun
  · exact warranted.overdue

/-- A call to drop the slot of a standby goes by a clock that an earlier pass has set. -/
theorem dropped_by_clock (comeback : Comeback host (Pass.Taken (reap host settings)) earlier gap sweep clocks after)
    {asker name : String} {id : Int} (named : Slot.memberOfName? name = some id) (tends : sweep.tends id = true)
    (asks : .dropSlot asker name ∈ sweep.calls) :
    ∃ pass ∈ earlier, pass.leads host = true ∧ clocks.get? id = some pass.now ∧
      settings.inactiveThreshold.nanos < sweep.now - pass.now := by
  have led := comeback.led (fun _ _ _ unled taken => Pass.Taken.unled taken unled) fun _ _ _ _ _ taken => taken
  obtain ⟨since, runs, due⟩ := (taken_minds comeback.taken).2 _ asks asker name id rfl named tends
  obtain ⟨pass, among, rfl⟩ := led.clock_set (fun _ _ _ taken => (taken_minds taken).1) _ _ runs
  obtain ⟨early, leads⟩ := List.mem_filter.mp among
  exact ⟨pass, early, leads, runs, due⟩

theorem dropped_iff_overdue (comeback : Comeback host (Pass.Taken (reap host settings)) earlier gap sweep clocks after)
    (steady : ∀ pass ∈ earlier ++ [sweep], pass.leads host = true →
      pass.outcome.Uncancelled ∧ (pass.slots.filterMap Slot.member?).Nodup)
    {name : String} {id : Int} (named : Slot.memberOfName? name = some id) (tends : sweep.tends id = true) :
    (sweep.drop? name).isSome ↔ ∃ slot ∈ sweep.slots, slot.name = name ∧ slot.active = false ∧
      ∃ since, since? (stretch id (earlier.filter (·.leads host))) = some since ∧
        settings.inactiveThreshold.nanos < sweep.now - since := by
  have led : Passes (Reaped host settings) _ clocks :=
    comeback.led (fun _ _ _ unled taken => Pass.Taken.unled taken unled) fun pass member leads _ _ taken =>
      ⟨taken, (steady pass (List.mem_append_left _ member) leads).1, (steady pass (List.mem_append_left _ member) leads).2⟩
  obtain ⟨uncancelled, distinct⟩ := steady sweep (by simp) comeback.leads
  have reaped : Reaped host settings clocks sweep after := ⟨comeback.taken, uncancelled, distinct⟩
  rcases reaped.visits with ⟨unlisted, undropped, _, _⟩ | ⟨_, visits, fates, between, each, drops, _, _⟩
  · rw [undropped, Sweep.slots, unlisted]
    simp
  · rw [drops, ← clock_of_passes led id]
    constructor
    · intro dropped
      obtain ⟨slot, among, rfl, _⟩ := each.dropped dropped
      obtain ⟨inactive, due⟩ := (each.due_iff reaped.distinct among named).mp dropped
      refine ⟨slot, among, rfl, inactive, ?_⟩
      rcases due with gone | due
      · exact absurd tends (Bool.eq_false_iff.mp gone)
      · cases runs : clocks.get? id with
        | none => simp [runs] at due
        | some since => exact ⟨since, rfl, by simpa [runs] using due⟩
    · rintro ⟨slot, among, rfl, inactive, since, runs, due⟩
      exact (each.due_iff reaped.distinct among named).mpr ⟨inactive, Or.inr (by simpa [runs] using due)⟩

end IdleSlots

/-- A grace period runs on through a gap in which nobody watched. In the first pass after it a standby is
unregistered, and a standby's slot is dropped, only by a clock that a pass before the gap has set. Where nothing stops
a pass, this happens exactly when that clock has run for long enough. -/
theorem grace_outlasts_gap (host : String) {threshold : Duration} (positive : 0 < threshold.nanos)
    (settings : SlotSettings) :
    (∀ (earlier gap : List (Sweep (List Int))) (sweep : Sweep (List Int)) (clocks after : Clocks),
      Comeback host (Pass.Taken (DeadMembers.reap host threshold)) earlier gap sweep clocks after →
      (∀ asker member, .unregister asker member ∈ sweep.calls → ∃ pass ∈ earlier, pass.leads host = true ∧
        clocks.get? member.id = some pass.now ∧ threshold.nanos ≤ sweep.now - pass.now) ∧
      ((∀ pass ∈ earlier ++ [sweep], pass.leads host = true →
          pass.outcome.Uncancelled ∧ (pass.members.map Member.id).Nodup) →
        ∀ id, (sweep.removal? id).isSome ↔ ∃ failure since, sweep.probe? id = some (.error failure) ∧
          DeadMembers.since? id (DeadMembers.stretch id (earlier.filter (·.leads host))) = some since ∧
            threshold.nanos ≤ sweep.now - since)) ∧
    (∀ (earlier gap : List (Sweep DroppedSlots)) (sweep : Sweep DroppedSlots) (clocks after : Clocks),
      Comeback host (Pass.Taken (IdleSlots.reap host settings)) earlier gap sweep clocks after →
      ∀ name id, Slot.memberOfName? name = some id → sweep.tends id = true →
      (∀ asker, .dropSlot asker name ∈ sweep.calls → ∃ pass ∈ earlier, pass.leads host = true ∧
        clocks.get? id = some pass.now ∧ settings.inactiveThreshold.nanos < sweep.now - pass.now) ∧
      ((∀ pass ∈ earlier ++ [sweep], pass.leads host = true →
          pass.outcome.Uncancelled ∧ (pass.slots.filterMap Slot.member?).Nodup) →
        ((sweep.drop? name).isSome ↔ ∃ slot ∈ sweep.slots, slot.name = name ∧ slot.active = false ∧
          ∃ since, IdleSlots.since? (IdleSlots.stretch id (earlier.filter (·.leads host))) = some since ∧
            settings.inactiveThreshold.nanos < sweep.now - since))) := by
  refine ⟨?members, ?slots⟩
  case members =>
    intro earlier gap sweep clocks after comeback
    exact ⟨fun _ _ => DeadMembers.unregistered_by_clock positive comeback,
      DeadMembers.unregistered_iff_overdue positive comeback⟩
  case slots =>
    intro earlier gap sweep clocks after comeback name id named tends
    exact ⟨fun _ => IdleSlots.dropped_by_clock comeback named tends,
      fun steady => IdleSlots.dropped_iff_overdue comeback steady named tends⟩

private def outlook (own : Role) (broken : List Call) : Playbook where
  server := ⟨"host-1", [], true⟩
  members := [⟨1, "host-1", "default", true, own⟩, ⟨2, "host-2", "default", true, .standby⟩]
  broken := broken

private def outlookAnswer (own : Role) (broken : List Call) (request : Request) (ground : Ground) :
    Option (request.Reply × Ground) :=
  match request with
  | .awaitOrStop (.call (.slots _)) => some (some (.ok [⟨"repmgr_slot_2", false, 0⟩]), ground)
  | request => (outlook own broken).answer request ground

private def glance {α : Type} (pass : Nat → Pass α) (own : Role) (broken : List Call) (now : Nat) (clocks : Clocks) :=
  ((pass now).runFrom clocks).play (outlookAnswer own broken) {}

private def glanceSweep {α : Type} (pass : Nat → Pass α) (own : Role) (broken : List Call) (now : Nat) (clocks : Clocks)
    (value : α) : Sweep α :=
  ⟨now, (glance pass own broken now clocks).1, .ok value⟩

private theorem glance_taken {α : Type} {pass : Nat → Pass α} {own : Role} {broken : List Call} {now : Nat}
    {clocks after : Clocks} {value : α} (ended : (glance pass own broken now clocks).2.1 = .done (.ok value, after)) :
    Pass.Taken pass clocks (glanceSweep pass own broken now clocks value) after :=
  Pass.taken_of_play ended

private abbrev membersSeen (own : Role) (broken : List Call) (now : Nat) (clocks : Clocks) (ids : List Int) :=
  glanceSweep (DeadMembers.reap "host-1" ⟨60⟩) own broken now clocks ids

private theorem members_comeback : Comeback "host-1" (Pass.Taken (DeadMembers.reap "host-1" ⟨60⟩))
    [membersSeen .primary [] 5 {} []] [membersSeen .standby [] 30 ⟨[(2, 5)]⟩ []]
    (membersSeen .primary [.connect "host-2"] 70 ⟨[(2, 5)]⟩ [2]) ⟨[(2, 5)]⟩ {} where
  passes := (Passes.start.next (glance_taken (by cbv))).next (glance_taken (by cbv))
  unled := List.forall_mem_singleton.mpr (by cbv)
  taken := glance_taken (by cbv)
  leads := by cbv

private abbrev slotsSeen (own : Role) (now : Nat) (clocks : Clocks) (dropped : DroppedSlots) :=
  glanceSweep (IdleSlots.reap "host-1" ⟨⟨10⟩, ⟨60⟩, 1⟩) own [] now clocks dropped

private theorem slots_comeback : Comeback "host-1" (Pass.Taken (IdleSlots.reap "host-1" ⟨⟨10⟩, ⟨60⟩, 1⟩))
    [slotsSeen .primary 5 {} {}] [slotsSeen .standby 30 ⟨[(2, 5)]⟩ {}]
    (slotsSeen .primary 70 ⟨[(2, 5)]⟩ { expired := ["repmgr_slot_2"] }) ⟨[(2, 5)]⟩ {} where
  passes := (Passes.start.next (glance_taken (by cbv))).next (glance_taken (by cbv))
  unled := List.forall_mem_singleton.mpr (by cbv)
  taken := glance_taken (by cbv)
  leads := by cbv

private theorem member_unregistered : .unregister "host-1" ⟨2, "host-2", "default", true, .standby⟩ ∈
    (membersSeen .primary [.connect "host-2"] 70 ⟨[(2, 5)]⟩ [2]).calls := List.mem_of_elem_eq_true (by cbv)

private theorem slot_dropped : .dropSlot "host-1" "repmgr_slot_2" ∈
    (slotsSeen .primary 70 ⟨[(2, 5)]⟩ { expired := ["repmgr_slot_2"] }).calls := List.mem_of_elem_eq_true (by cbv)

/-- A standby that was reached before the gap is unregistered the first time it is not reached after it, and its slot
is dropped that was seen once before the gap and once after it. -/
theorem gone_after_gap :
    (∃ earlier gap sweep clocks after,
      Comeback "host-1" (Pass.Taken (DeadMembers.reap "host-1" ⟨60⟩)) earlier gap sweep clocks after ∧
        (sweep.removal? 2).isSome = true ∧ ∃ pass ∈ earlier, clocks.get? 2 = some pass.now) ∧
    (∃ earlier gap sweep clocks after,
      Comeback "host-1" (Pass.Taken (IdleSlots.reap "host-1" ⟨⟨10⟩, ⟨60⟩, 1⟩)) earlier gap sweep clocks after ∧
        (sweep.drop? "repmgr_slot_2").isSome = true ∧ ∃ pass ∈ earlier, clocks.get? 2 = some pass.now) := by
  have positive : 0 < (⟨60⟩ : Duration).nanos := by decide
  obtain ⟨members, slots⟩ := grace_outlasts_gap "host-1" positive ⟨⟨10⟩, ⟨60⟩, 1⟩
  constructor
  · obtain ⟨clocked, due⟩ := members _ _ _ _ _ members_comeback
    obtain ⟨pass, early, _, runs, _⟩ := clocked _ _ member_unregistered
    refine ⟨_, _, _, _, _, members_comeback, (due ?_ 2).mpr ⟨Playbook.failure, 5, by cbv, by cbv, by decide⟩,
      pass, early, runs⟩
    refine List.forall_mem_cons.mpr ⟨fun _ => ⟨Outcome.uncancelled_ok _, ?_⟩,
      List.forall_mem_singleton.mpr fun _ => ⟨Outcome.uncancelled_ok _, ?_⟩⟩
    · decide +kernel
    · decide +kernel
  · obtain ⟨clocked, due⟩ := slots _ _ _ _ _ slots_comeback "repmgr_slot_2" 2 (by cbv) (by cbv)
    obtain ⟨pass, early, _, runs, _⟩ := clocked _ slot_dropped
    refine ⟨_, _, _, _, _, slots_comeback, (due ?_).mpr ⟨⟨"repmgr_slot_2", false, 0⟩, ?_, rfl, rfl, 5, by cbv, by decide⟩,
      pass, early, runs⟩
    · refine List.forall_mem_cons.mpr ⟨fun _ => ⟨Outcome.uncancelled_ok _, ?_⟩,
        List.forall_mem_singleton.mpr fun _ => ⟨Outcome.uncancelled_ok _, ?_⟩⟩
      · decide +kernel
      · decide +kernel
    · exact List.mem_of_elem_eq_true (by cbv)

/-- The first pass after the gap does not start anew: in both watches there is a run, with ever later instants and
a pass in the gap that found the node to be no primary, after which a standby is unregistered, or its slot dropped. -/
theorem gap_not_forgiven :
    (∃ first between last clocks after standby,
      Comeback "host-1" (Pass.Taken (DeadMembers.reap "host-1" ⟨60⟩)) [first] [between] last clocks after ∧
        between.follows "host-1" = true ∧ first.now < between.now ∧ between.now < last.now ∧
        standby ∈ Topology.standbys ⟨last.members⟩ ∧ .unregister "host-1" standby ∈ last.calls) ∧
    (∃ first between last clocks after name id,
      Comeback "host-1" (Pass.Taken (IdleSlots.reap "host-1" ⟨⟨10⟩, ⟨60⟩, 1⟩)) [first] [between] last clocks after ∧
        between.follows "host-1" = true ∧ first.now < between.now ∧ between.now < last.now ∧
        Slot.memberOfName? name = some id ∧ last.tends id = true ∧ .dropSlot "host-1" name ∈ last.calls) :=
  ⟨⟨_, _, _, _, _, _, members_comeback, by cbv, by decide, by decide, List.mem_of_elem_eq_true (by cbv),
      member_unregistered⟩,
    ⟨_, _, _, _, _, _, 2, slots_comeback, by cbv, by decide, by decide, by cbv, by cbv, slot_dropped⟩⟩

end QuorumWarden
