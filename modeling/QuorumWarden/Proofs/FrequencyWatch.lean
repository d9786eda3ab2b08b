import QuorumWarden.Proofs.RoundCourses

/-! No update of the frequency is lost. While the schedule waits and no news is on its way, nothing was sent since its
evaluation began; and what was sent since then ends the wait, whatever the timer says, and leads to another evaluation,
which reads it or what was sent after it. -/

namespace QuorumWarden

open QuorumWarden.Action (heard unlessCancelled)

namespace BackupSchedule

variable {host : String} {policy : RetryPolicy} {state : State} {begun paused waiting : Bulletin}
  {trace : List (Program.Event Request.Reply)} {seen deadline : Nat}
  {next : Option FrequencyNews → Procedure (Round State)}

/-- Nothing was sent in the meantime, and what was read is what there is. -/
structure UpToDate (begun waiting : Bulletin) (trace : List (Program.Event Request.Reply)) : Prop where
  unsent : begun.Changes [] waiting
  current : ∀ value, ⟨.prompt .frequency, value⟩ ∈ trace → value = waiting.frequency.value

/-- The schedule goes on. Unless somebody stops or cancels it, the round is nowhere stuck, and it evaluates and rests.
What it reads of the frequency, it reads after that time. -/
structure Proceeds (host : String) (policy : RetryPolicy) (since : Bulletin) (state : State) (begun : Bulletin) :
    Prop where
  comes : ∀ trace left paused, Program.Steps Bulletin.calm (round host policy state) begun trace left paused →
    ∃ rest next after, Program.Runs Bulletin.calm left paused rest (.again next) after
  course : ∀ trace result after, Program.Runs Bulletin.law (round host policy state) begun trace result after →
    Course host state trace result
  fresh : ∀ trace left after, Program.Steps Bulletin.law (round host policy state) begun trace left after →
    ∀ value, ⟨.prompt .frequency, value⟩ ∈ trace → ∃ there, since.Later there ∧ value = there.frequency.value

/-- As long as anything may be sent, the wait after an evaluation is one for news. -/
structure Watches (state : State) (begun : Bulletin) : Prop where
  live : begun.frequency.live = true → state.live = true
  asks : begun.frequency.live = true → ∀ ended evaluation trace left paused wait,
    Program.Steps Bulletin.law (evaluated state (.ok ended)) evaluation trace left paused →
      left.pending = some (.awaitOrStop wait) → ∃ deadline, wait = .frequencyNews state.seen deadline

/-- The wait can end at once. Unless it gives way to a stop, it ends with the news and leads to another round. -/
structure Alerted (host : String) (policy : RetryPolicy) (seen deadline : Nat)
    (next : Option FrequencyNews → Procedure (Round State)) (waiting : Bulletin) : Prop where
  atOnce : Bulletin.law (.awaitOrStop (.frequencyNews seen deadline)) waiting
    (some (.changed waiting.frequency.version)) waiting
  again : ∀ news after, Bulletin.law (.awaitOrStop (.frequencyNews seen deadline)) waiting (some news) after →
    news = .changed after.frequency.version ∧
      ∃ known, next (some news) = .done (.again known) ∧ Proceeds host policy waiting known after

theorem upToDate (abreast : state.Abreast begun)
    (steps : Program.Steps Bulletin.law (round host policy state) begun trace
      (.ask (.awaitOrStop (.frequencyNews seen deadline)) next) paused)
    (later : paused.Later waiting) (still : waiting.frequency.news? seen = none) : UpToDate begun waiting trace := by
  obtain ⟨live, rfl, rfl⟩ := round_waiting steps
  have known := (Frequency.news?_eq_none_iff.mp still).1
  have unsent : ∀ {there sent}, begun.Later there → there.Changes sent waiting → sent = [] := by
    intro there sent reached changes
    obtain ⟨earlier, reached⟩ := reached
    have counted := changes.version
    rw [known, reached.version] at counted
    have seen := abreast.seen
    exact List.eq_nil_of_length_eq_zero (by omega)
  obtain ⟨sent, changes⟩ := (Bulletin.steps_later steps).trans later
  obtain rfl := unsent (.refl begun) changes
  refine ⟨changes, fun value read => ?_⟩
  obtain ⟨there, reached, left, rfl⟩ := Bulletin.steps_read steps read
  obtain ⟨sent, since⟩ := left.trans later
  obtain rfl := unsent reached since
  exact since.value.symm

theorem proceeds {since : Bulletin} (later : since.Later begun) : Proceeds host policy since state begun where
  comes _ _ _ := round_comes
  course _ _ _ := round_course
  fresh trace left after steps value read := by
    obtain ⟨there, reached, _, shown⟩ := Bulletin.steps_read steps read
    exact ⟨there, later.trans reached, shown⟩

theorem State.Abreast.watching (abreast : state.Abreast begun) : Watches state begun where
  live := abreast.watches
  asks live ended evaluation trace left paused wait steps waits := by
    obtain ⟨deadline, rfl⟩ := evaluated_waits steps waits
    rw [resting, if_pos (abreast.watches live)] at waits
    cases waits
    exact ⟨deadline, rfl⟩

/-- What the schedule has not seen is still to be seen later. -/
theorem alerted (abreast : state.Abreast begun)
    (steps : Program.Steps Bulletin.law (round host policy state) begun trace
      (.ask (.awaitOrStop (.frequencyNews seen deadline)) next) paused)
    {sent : List Duration} (changes : begun.Changes sent waiting) (some : sent ≠ []) :
    Alerted host policy seen deadline next waiting := by
  obtain ⟨live, rfl, rfl⟩ := round_waiting steps
  have unseen : ∀ {there}, waiting.Later there → there.frequency.version ≠ state.seen := by
    intro there ⟨further, later⟩
    have seen := abreast.seen
    have length := List.length_pos_iff.mpr some
    rw [later.version, changes.version]
    omega
  refine ⟨⟨.refl _, ?_⟩, fun news after answered => ?_⟩
  · simp only [Bulletin.Answers, Bulletin.Ends, Frequency.news?_of_ne (unseen (.refl _)), Option.elim]
  · have ended : after.Ends (.frequencyNews state.seen deadline) news := answered.2
    simp only [Bulletin.Ends, Frequency.news?_of_ne (unseen answered.1), Option.elim] at ended
    subst ended
    exact ⟨rfl, _, rfl, proceeds answered.1⟩

/-- Whatever is sent, and whenever. -/
theorem no_update_lost (host : String) (policy : RetryPolicy) {start begun : Bulletin} {state : State}
    (laps : Laps Bulletin.law (round host policy) {} start state begun) :
    Proceeds host policy begun state begun ∧ Watches state begun ∧
      ∀ {trace seen deadline next paused waiting},
        Program.Steps Bulletin.law (round host policy state) begun trace
          (.ask (.awaitOrStop (.frequencyNews seen deadline)) next) paused → paused.Later waiting →
        (waiting.frequency.news? seen = none → UpToDate begun waiting trace) ∧
          ∀ sent, begun.Changes sent waiting → sent ≠ [] → Alerted host policy seen deadline next waiting := by
  have abreast := abreast_of_laps (abreast_start start) laps
  exact ⟨proceeds (.refl begun), abreast.watching,
    fun steps later => ⟨upToDate abreast steps later, fun _ => alerted abreast steps⟩⟩

/-- What an evaluation hears of a primary whose backups cannot be listed. -/
def unlisted (host : String) (members : List Member) (frequency : Duration) (failure : Failure) :
    List (Program.Event Request.Reply) :=
  [⟨.prompt .stopRequested, false⟩, ⟨.awaitOrStop (.call (.connect host)), some (.ok ())⟩,
    ⟨.awaitOrStop (.call (.listMembers host)), some (.ok members)⟩, ⟨.prompt .frequency, frequency⟩,
    ⟨.prompt .stopRequested, false⟩, ⟨.awaitOrStop (.call .listBackups), some (.error failure)⟩]

theorem runs_unlisted {members : List Member} (primary : (Topology.mk members).roleOf host = .primary)
    (frequency : Duration) {failure : Failure} (other : failure.isCancelled = false) :
    Program.Runs Law.free (evaluate host policy).run () (unlisted host members frequency failure) (.ok recheck) () := by
  simp only [unlisted, evaluate_run, unlessCancelled, Program.Runs, Program.steps_free_cons, Bool.false_eq_true,
    if_false, heard, if_pos primary, onPrimary, other]
  exact .refl

/-- The backups cannot be listed after the frequency was read, and a new frequency is sent during the wait. -/
theorem update_during_wait :
    let begun : Bulletin := ⟨0, { value := .ofSeconds 3600 }⟩
    let waiting : Bulletin := ⟨7, { value := .ofSeconds 60, version := 1 }⟩
    ∃ trace next, Laps Bulletin.law (round "a" {}) {} begun {} begun ∧
      Program.Steps Bulletin.law (round "a" {} {}) begun trace (.ask (.awaitOrStop (.frequencyNews 0 300000)) next)
        begun ∧
      ⟨.prompt .frequency, .ofSeconds 3600⟩ ∈ trace ∧ UpToDate begun begun trace ∧
      begun.Changes [.ofSeconds 60] waiting ∧ Alerted "a" {} 0 300000 next waiting := by
  intro begun waiting
  let rests : List (Program.Event Request.Reply) := [⟨.prompt .timer, (0 : Nat)⟩, ⟨.prompt .stopRequested, false⟩]
  let members : List Member := [⟨1, "a", "", true, .primary⟩]
  have primary : (Topology.mk members).roleOf "a" = .primary := by decide
  have lists : Program.Runs Law.free (evaluate "a" {}).run ()
      (unlisted "a" members (.ofSeconds 3600) (.message "no tool")) (.ok recheck) () := runs_unlisted primary _ rfl
  have evaluates := steps_evaluation lists (by simp [unlisted, Program.Event.yielding, Program.Event.stops])
  have waits : Program.Steps Law.free (evaluated {} (.ok (.ok recheck))) () rests
      (.ask (.awaitOrStop (.frequencyNews 0 300000)) fun news => rested (news.map (State.heard {}))) () := by
    rw [evaluated, rest_run]
    exact Program.steps_free_cons.mpr (Program.steps_free_cons.mpr .refl)
  have free := round_eq "a" {} {} ▸ Program.Runs.bind evaluates waits
  have steps : Program.Steps Bulletin.law _ begun _ _ begun := Bulletin.steps_atOnce free
    (by simp [unlisted, rests, Bulletin.Answers, Bulletin.Shows, Bulletin.Ends, begun])
  have changes : begun.Changes [.ofSeconds 60] waiting := .send _ rfl (.pass (Nat.zero_le 7) .refl)
  obtain ⟨_, _, watch⟩ := no_update_lost "a" {} (.start : Laps Bulletin.law (round "a" {}) {} begun {} begun)
  refine ⟨_, _, .start, steps, by simp [unlisted], (watch steps (.refl _)).1 rfl, changes, ?_⟩
  exact (watch steps ⟨_, changes⟩).2 _ changes (by simp)

end BackupSchedule

end QuorumWarden
