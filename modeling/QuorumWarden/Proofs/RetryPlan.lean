import QuorumWarden.Proofs.TimedWaits
import QuorumWarden.Simulation.Drill

/-! Calls of a tool that are planned ahead. When each of them begins and ends is fixed by how long the calls and the
delays last, and a stop cuts them off there. -/

namespace QuorumWarden.Backup

/-- How long one call of the tool takes, and how it ends. -/
structure Trial where
  millis : Nat
  outcome : Outcome String

def Trial.line (trial : Trial) : ScriptLine := .takes trial.millis trial.outcome

/-- What is wanted, and what comes of each call. After the last one of these every call succeeds at once. -/
structure Plan where
  policy : RetryPolicy
  wanted : BackupRequest
  trials : List Trial

namespace Plan

def limit (plan : Plan) : Nat := max 1 plan.policy.maxAttempts

def trial (plan : Plan) (index : Nat) : Trial := plan.trials[index]?.getD ⟨0, .ok ""⟩

/-- When each call begins: the first one at once, each later one a delay after the failure before it. -/
def begins (plan : Plan) : Nat → Nat
  | 0 => 0
  | index + 1 => begins plan index + Timer.span (plan.trial index).millis + Timer.span plan.policy.delay.millis

def ends (plan : Plan) (index : Nat) : Nat := plan.begins index + Timer.span (plan.trial index).millis

/-- How many calls would fail before the first success. -/
def failing (plan : Plan) : Nat := plan.trials.findIdx (·.outcome.isOk)

/-- How many calls are made if nothing stops them. -/
def calls (plan : Plan) : Nat := min (plan.failing + 1) plan.limit

/-- How many of them fail. -/
def failures (plan : Plan) : Nat := min plan.failing plan.limit

def result (plan : Plan) : Outcome String :=
  if plan.failing < plan.limit then (plan.trial plan.failing).outcome
  else (plan.trial (plan.limit - 1)).outcome.mapError fun failure =>
    { cause := .retriesExhausted plan.limit failure.full }

def call (plan : Plan) (index : Nat) : Nat × Call := (plan.begins index, .backup plan.wanted)

/-- What there is after the attempts, with a stop at that time. -/
structure Concluded (plan : Plan) (stopAt : Option Nat) (ended : Option (Outcome String) × Stage Script) : Prop where
  result : ended.1 = some (if Stage.inTime stopAt (plan.ends (plan.calls - 1)) then plan.result else .error .cancelled)
  calls : ended.2.world.calls.reverse =
    ((List.range plan.calls).filter fun index => Stage.inTime stopAt (plan.begins index)).map plan.call
  counted : ended.2.metrics.get .backupAttemptsFailed =
    (List.range plan.failures).countP fun index => Stage.inTime stopAt (plan.ends index)

/-- The tool says nothing that could be taken for a stop. -/
def Genuine (plan : Plan) : Prop :=
  ∀ trial ∈ plan.trials, ∀ failure, trial.outcome = .error failure → failure.isCancelled = false

variable {plan : Plan} {stopAt : Option Nat} {index : Nat} {failure : Failure}

theorem Genuine.trial (genuine : plan.Genuine) (failed : (plan.trial index).outcome = .error failure) :
    failure.isCancelled = false := by
  rw [Plan.trial] at failed
  cases held : plan.trials[index]? with
  | none =>
    rw [held] at failed
    cases failed
  | some trial =>
    rw [held] at failed
    exact genuine trial (List.mem_of_getElem? held) failure failed

theorem failed_of_lt (early : index < plan.failing) : (plan.trial index).outcome.isOk = false := by
  have within : index < plan.trials.length := Nat.lt_of_lt_of_le early List.findIdx_le_length
  rw [trial, List.getElem?_eq_getElem within]
  exact List.not_of_lt_findIdx early

theorem succeeds (plan : Plan) : (plan.trial plan.failing).outcome.isOk = true := by
  by_cases within : plan.failing < plan.trials.length
  · rw [trial, List.getElem?_eq_getElem within]
    have found := @List.findIdx_getElem _ (fun trial : Trial => trial.outcome.isOk) plan.trials within
    exact found
  · rw [trial, List.getElem?_eq_none (Nat.le_of_not_lt within)]
    rfl

theorem eq_failing_of_ok {output : String} (early : index ≤ plan.failing)
    (succeeded : (plan.trial index).outcome = .ok output) : index = plan.failing := by
  rcases Nat.eq_or_lt_of_le early with same | before
  · exact same
  · have failed := failed_of_lt before
    rw [succeeded] at failed
    cases failed

theorem lt_failing_of_error (early : index ≤ plan.failing) (failed : (plan.trial index).outcome = .error failure) :
    index < plan.failing := by
  refine Nat.lt_of_le_of_ne early fun same => ?_
  have succeeded := plan.succeeds
  rw [← same, failed] at succeeded
  cases succeeded

theorem result_of_ok {output : String} (early : index ≤ plan.failing) (within : index < plan.limit)
    (succeeded : (plan.trial index).outcome = .ok output) : plan.result = .ok output := by
  have same := eq_failing_of_ok early succeeded
  rw [result, if_pos (same ▸ within), ← same, succeeded]

theorem result_of_exhausted (early : index ≤ plan.failing) (last : index + 1 = plan.limit)
    (failed : (plan.trial index).outcome = .error failure) :
    plan.result = .error { cause := .retriesExhausted (index + 1) failure.full } := by
  have before := lt_failing_of_error early failed
  rw [result, if_neg (by omega), ← last, Nat.add_sub_cancel, failed]
  rfl

theorem begins_le_ends (plan : Plan) (index : Nat) : plan.begins index ≤ plan.ends index := Nat.le_add_right _ _

theorem ends_le_begins (plan : Plan) {index later : Nat} (before : index < later) :
    plan.ends index ≤ plan.begins later := by
  induction before with
  | refl => exact Nat.le_add_right _ _
  | step _ ih => exact Nat.le_trans ih (Nat.le_trans (plan.begins_le_ends _) (Nat.le_add_right _ _))

theorem begins_mono (plan : Plan) {index later : Nat} (before : index ≤ later) :
    plan.begins index ≤ plan.begins later := by
  rcases Nat.eq_or_lt_of_le before with rfl | earlier
  · exact Nat.le_refl _
  · exact Nat.le_trans (plan.begins_le_ends index) (plan.ends_le_begins earlier)

theorem ends_mono (plan : Plan) {index later : Nat} (before : index ≤ later) : plan.ends index ≤ plan.ends later := by
  rcases Nat.eq_or_lt_of_le before with rfl | earlier
  · exact Nat.le_refl _
  · exact Nat.le_trans (plan.ends_le_begins earlier) (plan.begins_le_ends later)

/-- Of indices in order the first ones are taken. -/
private theorem filter_range {taken : Nat → Bool} {first count : Nat} (within : first ≤ count)
    (inside : ∀ index < first, taken index = true)
    (outside : ∀ index, first ≤ index → index < count → taken index = false) :
    (List.range count).filter taken = List.range first := by
  obtain ⟨more, rfl⟩ := Nat.exists_eq_add_of_le within
  have before : (List.range first).filter taken = List.range first :=
    List.filter_eq_self.mpr fun index member => inside index (List.mem_range.mp member)
  have beyond : ((List.range more).map (first + ·)).filter taken = [] := by
    refine List.filter_eq_nil_iff.mpr fun index member => ?_
    obtain ⟨past, listed, rfl⟩ := List.mem_map.mp member
    rw [outside _ (Nat.le_add_right _ _) (Nat.add_lt_add_left (List.mem_range.mp listed) _)]
    exact Bool.false_ne_true
  rw [List.range_add, List.filter_append, before, beyond, List.append_nil]

theorem begun_in_time (within : index < plan.calls) (begun : Stage.inTime stopAt (plan.begins index) = true)
    (onward : index + 1 < plan.calls → Stage.inTime stopAt (plan.begins (index + 1)) = false) :
    ((List.range plan.calls).filter fun index => Stage.inTime stopAt (plan.begins index)) = List.range (index + 1) := by
  refine filter_range within (fun earlier before => ?_) fun later beyond inside => ?_
  · exact Stage.inTime_mono (plan.begins_mono (Nat.le_of_lt_succ before)) begun
  · exact Stage.outOfTime_mono (plan.begins_mono beyond) (onward (Nat.lt_of_le_of_lt beyond inside))

theorem failed_in_time {failed : Nat} (within : failed ≤ plan.failures)
    (ended : ∀ index < failed, Stage.inTime stopAt (plan.ends index) = true)
    (onward : failed < plan.failures → Stage.inTime stopAt (plan.ends failed) = false) :
    ((List.range plan.failures).countP fun index => Stage.inTime stopAt (plan.ends index)) = failed := by
  rw [List.countP_eq_length_filter, filter_range within ended, List.length_range]
  intro later beyond inside
  exact Stage.outOfTime_mono (plan.ends_mono beyond) (onward (Nat.lt_of_le_of_lt beyond inside))

/-- So many calls were made, and so many of them failed. -/
structure Made (plan : Plan) (calls failures : Nat) (stage : Stage Script) : Prop where
  calls : stage.world.calls.reverse = (List.range calls).map plan.call
  counted : stage.metrics.get .backupAttemptsFailed = failures

variable {after : Stage Script}

/-- Neither time nor a stop takes back what was done. -/
theorem Made.congr {calls failures : Nat} {stage : Stage Script} (made : plan.Made calls failures stage)
    (world : after.world = stage.world) (metrics : after.metrics = stage.metrics) : plan.Made calls failures after :=
  ⟨world ▸ made.calls, metrics ▸ made.counted⟩

/-- A stop before the start leaves nothing to be done. -/
theorem Made.concluded_before (made : plan.Made 0 0 after) :
    plan.Concluded (some 0) (some (.error .cancelled), after) where
  result := rfl
  calls := by
    have never : (List.range plan.calls).filter (fun index => Stage.inTime (some 0) (plan.begins index)) = [] :=
      List.filter_eq_nil_iff.mpr fun _ _ => Bool.false_ne_true
    rw [never]
    exact made.calls
  counted := made.counted.trans (List.countP_eq_zero.mpr fun _ _ => Bool.false_ne_true).symm

/-- A stop while a call is going on. -/
theorem Made.concluded_in_call (made : plan.Made (index + 1) index after) (early : index ≤ plan.failing)
    (within : index < plan.limit) (begun : Stage.inTime stopAt (plan.begins index) = true)
    (cut : Stage.inTime stopAt (plan.ends index) = false) :
    plan.Concluded stopAt (some (.error .cancelled), after) := by
  have called : index < plan.calls := by
    rw [Plan.calls]
    omega
  have failed : index ≤ plan.failures := by
    rw [failures]
    omega
  refine ⟨?_, ?_, ?_⟩
  · rw [Stage.outOfTime_mono (plan.ends_mono (Nat.le_sub_one_of_lt called)) cut]
    rfl
  · rw [begun_in_time called begun fun _ => Stage.outOfTime_mono (plan.ends_le_begins (Nat.lt_succ_self index)) cut]
    exact made.calls
  · rw [failed_in_time failed (fun earlier before => Stage.inTime_mono (plan.ends_le_begins before) begun) fun _ => cut]
    exact made.counted

/-- A stop in the delay after a failure. -/
theorem Made.concluded_in_delay (made : plan.Made (index + 1) (index + 1) after) (early : index < plan.failing)
    (more : index + 1 < plan.limit) (ended : Stage.inTime stopAt (plan.ends index) = true)
    (cut : Stage.inTime stopAt (plan.begins (index + 1)) = false) :
    plan.Concluded stopAt (some (.error .cancelled), after) := by
  have called : index + 1 < plan.calls := by
    rw [Plan.calls]
    omega
  have failed : index + 1 ≤ plan.failures := by
    rw [failures]
    omega
  have begun := Stage.inTime_mono (plan.begins_le_ends index) ended
  refine ⟨?_, ?_, ?_⟩
  · have late := Nat.le_trans (plan.begins_le_ends (index + 1)) (plan.ends_mono (Nat.le_sub_one_of_lt called))
    rw [Stage.outOfTime_mono late cut]
    rfl
  · rw [begun_in_time (Nat.lt_of_succ_lt called) begun fun _ => cut]
    exact made.calls
  · have before : ∀ earlier < index + 1, Stage.inTime stopAt (plan.ends earlier) = true := fun earlier before =>
      Stage.inTime_mono (plan.ends_mono (Nat.le_of_lt_succ before)) ended
    rw [failed_in_time failed before fun _ => Stage.outOfTime_mono (plan.begins_le_ends _) cut]
    exact made.counted

/-- The last call is over in time. -/
theorem Made.concluded_in_time (made : plan.Made (index + 1) plan.failures after) (last : index + 1 = plan.calls)
    (ended : Stage.inTime stopAt (plan.ends index) = true) : plan.Concluded stopAt (some plan.result, after) := by
  have begun := Stage.inTime_mono (plan.begins_le_ends index) ended
  have failed : plan.failures ≤ index + 1 := by
    rw [failures]
    rw [Plan.calls] at last
    omega
  refine ⟨?_, ?_, ?_⟩
  · rw [← last, Nat.add_sub_cancel, ended]
    rfl
  · rw [begun_in_time (by omega) begun fun more => by omega]
    exact made.calls
  · have before : ∀ earlier < plan.failures, Stage.inTime stopAt (plan.ends earlier) = true := fun earlier before =>
      Stage.inTime_mono (plan.ends_mono (by omega)) ended
    rw [failed_in_time (Nat.le_refl _) before fun more => by omega]
    exact made.counted

theorem Made.concluded_success (made : plan.Made (index + 1) index after) {output : String}
    (early : index ≤ plan.failing) (within : index < plan.limit) (ended : Stage.inTime stopAt (plan.ends index) = true)
    (succeeded : (plan.trial index).outcome = .ok output) : plan.Concluded stopAt (some (.ok output), after) := by
  have same := eq_failing_of_ok early succeeded
  have last : index + 1 = plan.calls := by
    rw [Plan.calls]
    omega
  have failed : index = plan.failures := by
    rw [failures]
    omega
  rw [← result_of_ok early within succeeded]
  exact concluded_in_time (failed ▸ made) last ended

theorem Made.concluded_exhausted (made : plan.Made (index + 1) (index + 1) after) (early : index ≤ plan.failing)
    (final : index + 1 = plan.limit) (ended : Stage.inTime stopAt (plan.ends index) = true)
    (failed : (plan.trial index).outcome = .error failure) :
    plan.Concluded stopAt (some (.error { cause := .retriesExhausted (index + 1) failure.full }), after) := by
  have before := lt_failing_of_error early failed
  have last : index + 1 = plan.calls := by
    rw [Plan.calls]
    omega
  have failures : plan.failures = index + 1 := by
    rw [Plan.failures]
    omega
  rw [← result_of_exhausted early final failed]
  exact concluded_in_time (failures ▸ made) last ended

end Plan

end QuorumWarden.Backup
