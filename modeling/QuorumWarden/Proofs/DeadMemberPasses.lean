import QuorumWarden.Proofs.PassRuns
import QuorumWarden.Proofs.RecordedVerdict
import QuorumWarden.Watch.DeadMembers

/-! One pass of the watch over the standbys, standby by standby. What a visit does to a member's clock depends
on that clock, the instant and what the member and the catalog answered, and on nothing else. -/

namespace QuorumWarden.DeadMembers

open QuorumWarden.Action

/-- What a visit may come to: its deeds, whether the standby was removed, and the clocks it leaves. -/
inductive Visited (host : String) (threshold : Duration) (now : Nat) (standby : Member) (clocks : Clocks) :
    List Deed → Bool → Clocks → Prop where
  | reached : Visited host threshold now standby clocks
      [.prompt .stopRequested false, .call (.connect standby.hostname) (.ok ())] false (clocks.restart standby.id now)
  | spared (failure : Failure) (recent : (clocks.start standby.id now).elapsed standby.id now < threshold.nanos) :
    Visited host threshold now standby clocks
      [.prompt .stopRequested false, .call (.connect standby.hostname) (.error failure)] false (clocks.start standby.id now)
  | refused (failure refusal : Failure) (due : threshold.nanos ≤ (clocks.start standby.id now).elapsed standby.id now) :
    Visited host threshold now standby clocks
      [.prompt .stopRequested false, .call (.connect standby.hostname) (.error failure), .prompt .stopRequested false,
        .call (.unregister host standby) (.error refusal)] false (clocks.start standby.id now)
  | removed (failure : Failure) (due : threshold.nanos ≤ (clocks.start standby.id now).elapsed standby.id now) :
    Visited host threshold now standby clocks
      [.prompt .stopRequested false, .call (.connect standby.hostname) (.error failure), .prompt .stopRequested false,
        .call (.unregister host standby) (.ok ()), .prompt (.count .membersReaped) ()] true
      ((clocks.start standby.id now).stop standby.id)

inductive VisitedEach (host : String) (threshold : Duration) (now : Nat) :
    List Member → Clocks → List Deed → List Int → Clocks → Prop where
  | nil {clocks} : VisitedEach host threshold now [] clocks [] [] clocks
  | cons {standby standbys clocks ahead removed between behind others after}
      (visited : Visited host threshold now standby clocks ahead removed between)
      (rest : VisitedEach host threshold now standbys between behind others after) :
      VisitedEach host threshold now (standby :: standbys) clocks (ahead ++ behind)
        (if removed then standby.id :: others else others) after

variable {host : String} {threshold : Duration} {now : Nat} {standby : Member} {clocks after : Clocks}
  {trace : List (Program.Event Request.Reply)}

theorem removed_of_ran {outcome : Outcome Bool}
    (ran : Pass.Ran (remove ⟨host⟩ threshold now standby) clocks trace outcome after) (uncancelled : outcome.Uncancelled) :
    ∃ removed, outcome = .ok removed ∧ ∃ deeds, Transcript trace deeds ∧ ∀ failure : Failure,
      Visited host threshold now standby clocks
        (.prompt .stopRequested false :: .call (.connect standby.hostname) (.error failure) :: deeds) removed after := by
  have decides := Pass.ran_clocks_bind (Pass.ran_update_bind ran)
  split at decides
  next recent =>
    obtain ⟨rfl, rfl, rfl⟩ := Pass.ran_pure decides
    exact ⟨false, rfl, [], .nil, fun failure => .spared failure recent⟩
  next waited =>
    have due := Nat.le_of_not_lt waited
    obtain ⟨result, _, _, rfl, answered, unregisters, ended⟩ := Pass.ran_settled_bind decides uncancelled
    obtain ⟨_, inside, told⟩ := transcript_unstopped unregisters answered
    have asked := told _ (transcript_answered inside)
    cases result with
    | error refusal =>
      obtain ⟨rfl, rfl, rfl⟩ := Pass.ran_pure ended
      exact ⟨false, rfl, _, asked.append .nil, fun failure => .refused failure refusal due⟩
    | ok value =>
      obtain ⟨_, _, rfl, last⟩ := Pass.ran_prompt_bind (Pass.ran_update_bind ended)
      obtain ⟨rfl, rfl, rfl⟩ := Pass.ran_pure last
      exact ⟨true, rfl, _, asked.append (.cons rfl .nil), fun failure => .removed failure due⟩

theorem visited_of_ran {outcome : Outcome Bool}
    (ran : Pass.Ran (visit ⟨host⟩ threshold now standby) clocks trace outcome after) (uncancelled : outcome.Uncancelled) :
    ∃ removed, outcome = .ok removed ∧ ∃ deeds, Transcript trace deeds ∧
      Visited host threshold now standby clocks deeds removed after := by
  obtain ⟨result, _, _, rfl, answered, dials, onward⟩ := Pass.ran_settled_bind ran uncancelled
  obtain ⟨_, inside, told⟩ := transcript_unstopped dials answered
  obtain ⟨reply, rfl, dialled⟩ := transcript_dialled inside
  cases reply with
  | ok value =>
    have ended : Pass.Ran (pure false) (clocks.restart standby.id now) _ outcome after := Pass.ran_update_bind onward
    obtain ⟨rfl, rfl, rfl⟩ := Pass.ran_pure ended
    exact ⟨false, rfl, _, (told _ dialled).append .nil, .reached⟩
  | error failure =>
    obtain ⟨removed, rfl, deeds, rest, visited⟩ := removed_of_ran onward uncancelled
    exact ⟨removed, rfl, _, (told _ dialled).append rest, visited failure⟩

theorem visitedEach_of_ran {standbys : List Member} {outcome : Outcome (List Int)}
    (ran : Pass.Ran (visitEach ⟨host⟩ threshold now standbys) clocks trace outcome after)
    (uncancelled : outcome.Uncancelled) :
    ∃ removed, outcome = .ok removed ∧ ∃ deeds, Transcript trace deeds ∧
      VisitedEach host threshold now standbys clocks deeds removed after := by
  induction standbys generalizing clocks trace outcome after with
  | nil =>
    obtain ⟨rfl, rfl, rfl⟩ := Pass.ran_pure ran
    exact ⟨[], rfl, [], .nil, .nil⟩
  | cons standby standbys ih =>
    obtain ⟨removed, between, _, _, rfl, ⟨ahead, told, visited⟩, onward⟩ :=
      Pass.ran_bind_returning ran uncancelled visited_of_ran
    obtain ⟨others, last, _, _, rfl, ⟨behind, told', visits⟩, ended⟩ := Pass.ran_bind_returning onward uncancelled ih
    obtain ⟨rfl, rfl, rfl⟩ := Pass.ran_pure ended
    refine ⟨_, rfl, _, told.append (told'.append .nil), ?_⟩
    rw [List.append_nil]
    exact .cons visited visits

def dialled? : Deed → Option (String × Outcome Unit)
  | .call (.connect hostname) reply => some (hostname, reply)
  | _ => none

def unregistered? : Deed → Option (Member × Outcome Unit)
  | .call (.unregister _ member) reply => some (member, reply)
  | _ => none

/-- What was answered about the member of this number. -/
def answerFor (id : Int) (answers : List (Member × Outcome Unit)) : Option (Outcome Unit) :=
  answers.findSome? fun answer => if answer.1.id = id then some answer.2 else none

/-- What connecting to a standby came to, where these standbys were dialled in turn. -/
def probeOf (id : Int) (standbys : List Member) (dials : List (String × Outcome Unit)) : Option (Outcome Unit) :=
  answerFor id (standbys.zip (dials.map Prod.snd))

/-- What unregistering a member came to, if it was tried. -/
def removalOf (id : Int) (deeds : List Deed) : Option (Outcome Unit) := answerFor id (deeds.filterMap unregistered?)

@[simp] theorem removalOf_nil (id : Int) : removalOf id [] = none := rfl

@[simp] theorem removalOf_prompt (id : Int) (asked : Prompt) (reply : asked.Reply) (deeds : List Deed) :
    removalOf id (.prompt asked reply :: deeds) = removalOf id deeds := rfl

@[simp] theorem removalOf_connect (id : Int) (hostname : String) (reply : Outcome Unit) (deeds : List Deed) :
    removalOf id (.call (.connect hostname) reply :: deeds) = removalOf id deeds := rfl

@[simp] theorem removalOf_unregister (id : Int) (host : String) (member : Member) (reply : Outcome Unit)
    (deeds : List Deed) :
    removalOf id (.call (.unregister host member) reply :: deeds) =
      if member.id = id then some reply else removalOf id deeds := by
  show answerFor id ((member, reply) :: deeds.filterMap unregistered?) = _
  unfold answerFor
  rw [List.findSome?_cons]
  by_cases same : member.id = id
  · rw [if_pos same, if_pos same]
  · rw [if_neg same, if_neg same]
    rfl

theorem removalOf_append (id : Int) (ahead behind : List Deed) :
    removalOf id (ahead ++ behind) = (removalOf id ahead).or (removalOf id behind) := by
  simp only [removalOf, answerFor, List.filterMap_append, List.findSome?_append]

/-- What a pass makes of a member's clock: by the probe, the attempt to unregister it, and the clock before. -/
inductive Told (threshold : Duration) (now : Nat) (since : Option Nat) :
    Option (Outcome Unit) → Option (Outcome Unit) → Option Nat → Prop where
  | unvisited : Told threshold now since none none since
  | reached : Told threshold now since (some (.ok ())) none (some now)
  | spared (failure : Failure) (recent : now - since.getD now < threshold.nanos) :
    Told threshold now since (some (.error failure)) none (some (since.getD now))
  | refused (failure refusal : Failure) (due : threshold.nanos ≤ now - since.getD now) :
    Told threshold now since (some (.error failure)) (some (.error refusal)) (some (since.getD now))
  | removed (failure : Failure) (due : threshold.nanos ≤ now - since.getD now) :
    Told threshold now since (some (.error failure)) (some (.ok ())) none

variable {deeds : List Deed} {removed : Bool}

theorem Visited.told (visited : Visited host threshold now standby clocks deeds removed after) :
    ∃ reply, deeds.filterMap dialled? = [(standby.hostname, reply)] ∧
      Told threshold now (clocks.get? standby.id) (some reply) (removalOf standby.id deeds) (after.get? standby.id) ∧
      (removed = true ↔ removalOf standby.id deeds = some (.ok ())) := by
  cases visited with
  | reached => exact ⟨.ok (), rfl, by simpa using Told.reached, by simp⟩
  | spared failure recent =>
    rw [Clocks.elapsed_start] at recent
    exact ⟨.error failure, rfl, by simpa using Told.spared failure recent, by simp⟩
  | refused failure refusal due =>
    rw [Clocks.elapsed_start] at due
    exact ⟨.error failure, rfl, by simpa using Told.refused failure refusal due, by simp⟩
  | removed failure due =>
    rw [Clocks.elapsed_start] at due
    exact ⟨.error failure, rfl, by simpa using Told.removed failure due, by simp⟩

theorem Visited.others (visited : Visited host threshold now standby clocks deeds removed after) {id : Int}
    (other : id ≠ standby.id) : removalOf id deeds = none ∧ after.get? id = clocks.get? id := by
  cases visited <;> simp [other, Ne.symm other]

theorem Told.of_unprobed {since clock : Option Nat} {removal : Option (Outcome Unit)}
    (told : Told threshold now since none removal clock) :
    removal = none ∧ clock = since := by
  cases told
  exact ⟨rfl, rfl⟩

theorem Told.tried_iff {since clock : Option Nat} {probe removal : Option (Outcome Unit)}
    (told : Told threshold now since probe removal clock) :
    removal.isSome ↔ ∃ failure, probe = some (.error failure) ∧ threshold.nanos ≤ now - since.getD now := by
  cases told with
  | unvisited | reached => simp
  | spared failure recent => simpa using recent
  | refused failure _ due | removed failure due => simpa using due

theorem Told.stopped {since clock : Option Nat} {probe : Option (Outcome Unit)}
    (told : Told threshold now since probe (some (.ok ())) clock) : clock = none := by
  cases told
  rfl

/-- The clock of a member that stays, after it was probed or not. -/
def clockFrom (now : Nat) (since : Option Nat) : Option (Outcome Unit) → Option Nat
  | none => since
  | some (.ok ()) => some now
  | some (.error _) => some (since.getD now)

theorem Told.runs_on {since clock : Option Nat} {probe removal : Option (Outcome Unit)}
    (told : Told threshold now since probe removal clock) (unremoved : removal ≠ some (.ok ())) :
    clock = clockFrom now since probe := by
  cases told with
  | removed => exact absurd rfl unremoved
  | _ => rfl

theorem unprobed_of_unlisted {id : Int} {standbys : List Member} (unlisted : id ∉ standbys.map Member.id)
    (dials : List (String × Outcome Unit)) : probeOf id standbys dials = none := by
  apply List.findSome?_eq_none_iff.mpr
  intro answer member
  have listed : answer.1.id ∈ standbys.map Member.id := List.mem_map_of_mem (List.of_mem_zip member).1
  have other : answer.1.id ≠ id := fun same => unlisted (same ▸ listed)
  rw [if_neg other]

/-- The standbys are dialled in the order of the catalog, each once. -/
theorem VisitedEach.dialled {standbys : List Member} {ids : List Int}
    (visits : VisitedEach host threshold now standbys clocks deeds ids after) :
    (deeds.filterMap dialled?).map Prod.fst = standbys.map Member.hostname := by
  induction visits with
  | nil => rfl
  | cons visited _ ih =>
    obtain ⟨reply, dialled, _⟩ := visited.told
    rw [List.filterMap_append, List.map_append, dialled, ih]
    rfl

theorem VisitedEach.told {standbys : List Member} {ids : List Int}
    (visits : VisitedEach host threshold now standbys clocks deeds ids after)
    (distinct : (standbys.map Member.id).Nodup) (id : Int) :
    Told threshold now (clocks.get? id) (probeOf id standbys (deeds.filterMap dialled?)) (removalOf id deeds)
        (after.get? id) ∧
      (id ∈ ids ↔ removalOf id deeds = some (.ok ())) := by
  induction visits with
  | nil => exact ⟨.unvisited, by simp⟩
  | @cons standby standbys clocks ahead removed between behind others after visited rest ih =>
    obtain ⟨fresh, distinct⟩ := List.nodup_cons.mp distinct
    obtain ⟨later, gone⟩ := ih distinct
    obtain ⟨reply, dialled, told, left⟩ := visited.told
    have probed : probeOf id (standby :: standbys) ((ahead ++ behind).filterMap dialled?) =
        if standby.id = id then some reply else probeOf id standbys (behind.filterMap dialled?) := by
      unfold probeOf answerFor
      rw [List.filterMap_append, dialled, List.singleton_append, List.map_cons, List.zip_cons_cons, List.findSome?_cons]
      by_cases same : standby.id = id
      · rw [if_pos same, if_pos same]
      · rw [if_neg same, if_neg same]
    rw [probed, removalOf_append]
    by_cases same : standby.id = id
    · subst same
      rw [unprobed_of_unlisted fresh] at later
      obtain ⟨unremoved, kept⟩ := later.of_unprobed
      rw [if_pos rfl, unremoved, kept, Option.or_none]
      refine ⟨told, ?_⟩
      rw [← left]
      have absent : standby.id ∉ others := by
        rw [gone, unremoved]
        simp
      cases removed <;> simp [absent]
    · obtain ⟨unremoved, kept⟩ := visited.others (Ne.symm same)
      rw [if_neg same, unremoved, Option.none_or, ← kept]
      refine ⟨later, ?_⟩
      rw [← gone]
      cases removed <;> simp [Ne.symm same]

theorem visits_of_ran {outcome : Outcome (List Int)} (ran : Pass.Ran (reap host threshold now) clocks trace outcome after)
    (uncancelled : outcome.Uncancelled) {members : List Member}
    (listed : surveyed (trace.filterMap Program.Event.deed?) = some members) {row : Member}
    (own : Topology.row ⟨members⟩ host = .ok row) (primary : row.isPrimary = true) :
    ∃ visits ids between, outcome = .ok ids ∧
      trace.filterMap Program.Event.deed? = lookDeeds host members ++ visits ∧
      VisitedEach host threshold now (Topology.standbys ⟨members⟩) clocks visits ids between ∧
      after = between.keepOnly (Topology.contains ⟨members⟩) := by
  rcases Pass.ran_survey_bind ran uncancelled with ⟨deeds, _, found, told, _⟩ | ⟨others, first, second, rfl, looked, onward⟩
  · rw [told.filterMap] at listed
    cases found <;> cases listed
  have same : others = members := by
    rw [List.filterMap_append, looked.filterMap] at listed
    exact Option.some.inj listed
  subst same
  rcases Pass.ran_liftExcept_bind onward with ⟨_, failed, _⟩ | ⟨_, found, onward⟩
  · rw [own] at failed
    cases failed
  rw [own] at found
  cases found
  rw [primary] at onward
  have visiting : Pass.Ran (visitEach ⟨host⟩ threshold now (Topology.standbys ⟨others⟩) >>= fun removed => do
      Pass.update (·.keepOnly (Topology.contains ⟨others⟩))
      return removed) clocks second outcome after := onward
  obtain ⟨ids, between, _, _, rfl, ⟨visited, told, each⟩, ended⟩ :=
    Pass.ran_bind_returning visiting uncancelled visitedEach_of_ran
  have ended : Pass.Ran (pure ids) (between.keepOnly (Topology.contains ⟨others⟩)) _ outcome after :=
    Pass.ran_update_bind ended
  obtain ⟨rfl, rfl, rfl⟩ := Pass.ran_pure ended
  exact ⟨visited, ids, between, rfl, (looked.append (told.append .nil)).filterMap.trans (by simp), each, rfl⟩

end QuorumWarden.DeadMembers
