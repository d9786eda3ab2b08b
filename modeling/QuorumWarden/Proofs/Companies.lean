import QuorumWarden.Proofs.GivingWay

/-! Tasks side by side in any order of turns, beside a procedure that waits for them. A task can be given a turn at any
time, also when it has nothing to wake up for. -/

namespace QuorumWarden

open Procedure

namespace Crew

variable {σ κ : Type}

/-- The crew after a task has come to its end. -/
def retire (crew : Crew σ κ) (worker : Worker σ) (stage : Stage κ) (ending : Ending) : Crew σ κ :=
  { crew with
    workers := crew.workers.filter (·.number != worker.number)
    stage := { stage with endings := stage.endings ++ [(stage.now, ending)] } }

/-- The crew after a task has had its turn and waits. -/
def suspend (crew : Crew σ κ) (worker : Worker σ) (stage : Stage κ) (rest : Procedure (Round σ)) : Crew σ κ where
  workers := crew.workers.filter (·.number != worker.number) ++ [⟨worker.name, crew.issued, rest⟩]
  stage := stage
  issued := crew.issued + 1

/-- Every task has a number of its own, and no number is to come again. -/
structure Numbered (crew : Crew σ κ) : Prop where
  distinct : (crew.workers.map Worker.number).Nodup
  issued : ∀ worker ∈ crew.workers, worker.number < crew.issued

theorem others_sublist (crew : Crew σ κ) (worker : Worker σ) :
    (crew.workers.filter (·.number != worker.number)).Sublist crew.workers := List.filter_sublist

theorem others_perm {workers : List (Worker σ)} (distinct : (workers.map Worker.number).Nodup) {worker : Worker σ}
    (member : worker ∈ workers) : workers.Perm (worker :: workers.filter (·.number != worker.number)) := by
  induction workers with
  | nil => cases member
  | cons first rest ih =>
    obtain ⟨fresh, distinct⟩ := List.nodup_cons.mp distinct
    rcases List.mem_cons.mp member with rfl | later
    · have others : rest.filter (·.number != worker.number) = rest := by
        refine List.filter_eq_self.mpr fun other among => ?_
        have different : other.number ≠ worker.number := fun same => fresh (same ▸ List.mem_map_of_mem among)
        simpa using different
      rw [List.filter_cons_of_neg (by simp), others]
    · have different : first.number ≠ worker.number := fun same => fresh (same ▸ List.mem_map_of_mem later)
      rw [List.filter_cons_of_pos (by simpa using different)]
      exact ((ih distinct later).cons first).trans (.swap worker first _)

theorem others_length {workers : List (Worker σ)} (distinct : (workers.map Worker.number).Nodup) {worker : Worker σ}
    (member : worker ∈ workers) : (workers.filter (·.number != worker.number)).length + 1 = workers.length :=
  (others_perm distinct member).length_eq.symm

/-- For every task that is gone there is an ending. -/
theorem Numbered.counted_retire {crew : Crew σ κ} (numbered : crew.Numbered) {worker : Worker σ}
    (member : worker ∈ crew.workers) (stage : Stage κ) (ending : Ending) :
    (crew.retire worker stage ending).workers.length + (crew.retire worker stage ending).stage.endings.length =
      crew.workers.length + stage.endings.length := by
  have others := others_length numbered.distinct member
  simp only [Crew.retire, List.length_append, List.length_singleton]
  omega

theorem Numbered.counted_suspend {crew : Crew σ κ} (numbered : crew.Numbered) {worker : Worker σ}
    (member : worker ∈ crew.workers) (stage : Stage κ) (rest : Procedure (Round σ)) :
    (crew.suspend worker stage rest).workers.length = crew.workers.length := by
  rw [suspend, List.length_append, List.length_singleton, others_length numbered.distinct member]

theorem heeded_retire {crew : Crew σ κ} {stage : Stage κ} (heeded : stage.heeded ≤ stage.endings.length)
    (worker : Worker σ) (ending : Ending) : (crew.retire worker stage ending).stage.heeded ≤
      (crew.retire worker stage ending).stage.endings.length := by
  simp only [Crew.retire, List.length_append]
  omega

theorem Numbered.retire {crew : Crew σ κ} (numbered : crew.Numbered) (worker : Worker σ) (stage : Stage κ)
    (ending : Ending) : (crew.retire worker stage ending).Numbered where
  distinct := numbered.distinct.sublist ((crew.others_sublist worker).map Worker.number)
  issued := fun other member => numbered.issued other ((crew.others_sublist worker).subset member)

theorem Numbered.suspend {crew : Crew σ κ} (numbered : crew.Numbered) (worker : Worker σ) (stage : Stage κ)
    (rest : Procedure (Round σ)) : (crew.suspend worker stage rest).Numbered where
  distinct := by
    rw [Crew.suspend, List.map_append, List.map_singleton]
    refine List.nodup_append.mpr ⟨numbered.distinct.sublist ((crew.others_sublist worker).map Worker.number),
      by simp, fun number among fresh new => ?_⟩
    obtain ⟨other, member, rfl⟩ := List.mem_map.mp among
    rw [List.mem_singleton.mp new]
    exact Nat.ne_of_lt (numbered.issued other ((crew.others_sublist worker).subset member))
  issued := by
    intro other member
    rcases List.mem_append.mp member with old | new
    · exact Nat.lt_succ_of_lt (numbered.issued other ((crew.others_sublist worker).subset old))
    · cases List.mem_singleton.mp new
      exact Nat.lt_succ_self _

theorem Numbered.add {crew : Crew σ κ} (numbered : crew.Numbered) (name : String) (task : Procedure (Round σ)) :
    (crew.add name task).Numbered where
  distinct := by
    rw [Crew.add, List.map_append, List.map_singleton]
    refine List.nodup_append.mpr ⟨numbered.distinct, by simp, fun number among fresh new => ?_⟩
    obtain ⟨other, member, rfl⟩ := List.mem_map.mp among
    rw [List.mem_singleton.mp new]
    exact Nat.ne_of_lt (numbered.issued other member)
  issued := by
    intro other member
    rcases List.mem_append.mp member with old | new
    · exact Nat.lt_succ_of_lt (numbered.issued other old)
    · cases List.mem_singleton.mp new
      exact Nat.lt_succ_self _

variable [World κ] [MarkerStore (StateM κ)] {round : σ → Procedure (Round σ)}

/-- A turn ends the task or leaves it waiting, and that is all. -/
theorem turn_shape (round : σ → Procedure (Round σ)) (crew : Crew σ κ) (worker : Worker σ) :
    ∃ rest stage, runWorker round patience crew.stage worker.rest = (rest, stage) ∧
      ((∃ ending, ending? worker.name rest = some ending ∧ crew.turn round worker = crew.retire worker stage ending) ∨
        ending? worker.name rest = none ∧ crew.turn round worker = crew.suspend worker stage rest) := by
  unfold turn
  rcases runWorker round patience crew.stage worker.rest with ⟨rest, stage⟩
  refine ⟨rest, stage, rfl, ?_⟩
  cases ended : ending? worker.name rest with
  | some ending =>
    refine Or.inl ⟨ending, rfl, ?_⟩
    simp only [ended]
    rfl
  | none =>
    refine Or.inr ⟨rfl, ?_⟩
    simp only [ended]
    rfl

theorem Numbered.turn {crew : Crew σ κ} (numbered : crew.Numbered) (worker : Worker σ) :
    (crew.turn round worker).Numbered := by
  obtain ⟨rest, stage, _, ⟨ending, _, turned⟩ | ⟨_, turned⟩⟩ := crew.turn_shape round worker
  · rw [turned]
    exact numbered.retire worker stage ending
  · rw [turned]
    exact numbered.suspend worker stage rest

theorem mem_turn (crew : Crew σ κ) {worker other : Worker σ} (member : other ∈ crew.workers)
    (different : other.number ≠ worker.number) : other ∈ (crew.turn round worker).workers := by
  have kept : other ∈ crew.workers.filter (·.number != worker.number) :=
    List.mem_filter.mpr ⟨member, by simpa using different⟩
  obtain ⟨rest, stage, _, ⟨ending, _, turned⟩ | ⟨_, turned⟩⟩ := crew.turn_shape round worker
  · rw [turned]
    exact kept
  · rw [turned]
    exact List.mem_append_left _ kept

/-- A task that has not begun a round or waits in one, and ends in good order at a stop. -/
abbrev Heedful (task : Procedure (Round σ)) : Prop := task.Poised (.finished (.ok ())) Round.Orderly

theorem runWorker_heedful (rounds : ∀ state, Heedful (round state)) {task : Procedure (Round σ)} (heedful : Heedful task)
    (patience : Nat) (stage : Stage κ) :
    (runWorker round patience stage task).1 = .done (.finished (.ok ())) ∨
      Heedful (runWorker round patience stage task).1 := by
  induction patience generalizing stage task with
  | zero => exact Or.inr heedful
  | succ patience ih =>
    have resumed : _ ∨ Heedful (stage.resume task).1 := Stage.resume_poised heedful
    rw [runWorker]
    rcases same : stage.resume task with ⟨rest, after⟩
    rw [same] at resumed
    rcases resumed with ⟨ended, same, orderly⟩ | poised
    · cases same
      cases ended with
      | again state => exact ih (rounds state) after
      | finished outcome =>
        have orderly : outcome = .ok () := orderly
        subst orderly
        exact Or.inl rfl
      | brokenOff => exact orderly.elim
    · cases rest with
      | done ended => exact poised.endsAtStop.elim
      | ask request next => exact Or.inr poised

/-- A task that heeds a stop ends in good order or heeds it still. -/
theorem turn_cases (rounds : ∀ state, Heedful (round state)) (crew : Crew σ κ) {worker : Worker σ}
    (heedful : Heedful worker.rest) :
    ∃ rest stage, runWorker round patience crew.stage worker.rest = (rest, stage) ∧
      (rest = .done (.finished (.ok ())) ∧
          crew.turn round worker = crew.retire worker stage (.returned worker.name (.ok ())) ∨
        Heedful rest ∧ crew.turn round worker = crew.suspend worker stage rest) := by
  have left := runWorker_heedful rounds heedful patience crew.stage
  obtain ⟨rest, stage, ran, shape⟩ := crew.turn_shape round worker
  rw [ran] at left
  refine ⟨rest, stage, ran, ?_⟩
  rcases left with ended | waits
  · have ended : rest = .done (.finished (.ok ())) := ended
    subst ended
    rcases shape with ⟨_, told, turned⟩ | ⟨told, _⟩
    · cases told
      exact Or.inl ⟨rfl, turned⟩
    · cases told
  · have untold : ending? worker.name rest = none := by
      cases rest with
      | done ended => exact waits.endsAtStop.elim
      | ask request next => rfl
    rcases shape with ⟨_, told, _⟩ | ⟨_, turned⟩
    · rw [untold] at told
      cases told
    · exact Or.inr ⟨waits, turned⟩

/-- At a stop a turn does nothing but end the task in good order. -/
theorem turn_stopped (crew : Crew σ κ) (stopped : crew.stage.stopped = true) {worker : Worker σ}
    (heedful : Heedful worker.rest) :
    crew.turn round worker = crew.retire worker crew.stage (.returned worker.name (.ok ())) := by
  have ends : runWorker round patience crew.stage worker.rest = (.done (.finished (.ok ())), crew.stage) := by
    rw [show patience = 127 + 1 from rfl, runWorker, Stage.resume_stopped stopped heedful.endsAtStop]
  obtain ⟨rest, stage, ran, shape⟩ := crew.turn_shape round worker
  cases ends.symm.trans ran
  rcases shape with ⟨_, told, turned⟩ | ⟨told, _⟩
  · cases told
    exact turned
  · cases told

end Crew

/-- A crew, and the procedure that waits for its tasks. -/
structure Company (σ κ : Type) where
  crew : Crew σ κ
  main : Procedure (Outcome Unit)

namespace Company

variable {σ κ : Type}

def onStage (company : Company σ κ) (stage : Stage κ) : Company σ κ :=
  { company with crew := { company.crew with stage } }

/-- Whether the waiting procedure can go on. -/
def Awaited (company : Company σ κ) : Prop :=
  Stage.value? company.main = none ∧ company.main.isReady company.crew.stage = true

/-- Nobody can go on by itself. -/
def Quiet (company : Company σ κ) : Prop :=
  (∀ worker ∈ company.crew.workers, worker.rest.isReady company.crew.stage = false) ∧ ¬company.Awaited

theorem quiet_of_all {company : Company σ κ}
    (idle : (company.crew.workers.all fun worker => !worker.rest.isReady company.crew.stage) = true)
    (waits : company.main.isReady company.crew.stage = false) : company.Quiet := by
  refine ⟨fun worker member => ?_, fun awaited => Bool.false_ne_true (waits.symm.trans awaited.2)⟩
  simpa using List.all_eq_true.mp idle worker member

/-- The company after the waiting procedure has had its turn. -/
def attended [World κ] [MarkerStore (StateM κ)] (company : Company σ κ) : Company σ κ where
  crew := { company.crew with stage := (company.crew.stage.resume company.main).2 }
  main := (company.crew.stage.resume company.main).1

/-- So many turns, in any order. Between them the stage may change from outside, and tasks may break off if mishaps
are to be reckoned with. -/
inductive Course [World κ] [MarkerStore (StateM κ)] (round : σ → Procedure (Round σ))
    (outside : Stage κ → Stage κ → Prop) (mishaps : Prop) (start : Company σ κ) : Nat → Company σ κ → Prop where
  | start : Course round outside mishaps start 0 start
  | turn {turns : Nat} {company : Company σ κ} {worker : Worker σ}
      (course : Course round outside mishaps start turns company) (member : worker ∈ company.crew.workers) :
    Course round outside mishaps start (turns + 1) { company with crew := company.crew.turn round worker }
  | attend {turns : Nat} {company : Company σ κ} (course : Course round outside mishaps start turns company)
      (awaited : company.Awaited) :
    Course round outside mishaps start (turns + 1) company.attended
  | outside {turns : Nat} {company : Company σ κ} {stage : Stage κ}
      (course : Course round outside mishaps start turns company) (changed : outside company.crew.stage stage) :
    Course round outside mishaps start turns (company.onStage stage)
  | mishap {turns : Nat} {company : Company σ κ} {worker : Worker σ}
      (course : Course round outside mishaps start turns company) (may : mishaps) (member : worker ∈ company.crew.workers)
      (why : String) :
    Course round outside mishaps start turns
      { company with crew := company.crew.retire worker company.crew.stage (@Ending.brokenOff why) }

def Heedful (company : Company σ κ) : Prop := ∀ worker ∈ company.crew.workers, Crew.Heedful worker.rest

theorem Heedful.retire {company : Company σ κ} (heedful : company.Heedful) (worker : Worker σ) (stage : Stage κ)
    (ending : Ending) : Heedful { company with crew := company.crew.retire worker stage ending } :=
  fun other member => heedful other ((company.crew.others_sublist worker).subset member)

/-- At a stop every task can go on. -/
theorem Heedful.workers_of_quiet {company : Company σ κ} (heedful : company.Heedful)
    (stopped : company.crew.stage.stopped = true) (quiet : company.Quiet) : company.crew.workers = [] := by
  refine List.eq_nil_iff_forall_not_mem.mpr fun worker member => ?_
  have ready := (heedful worker member).endsAtStop.isReady stopped
  exact Bool.false_ne_true ((quiet.1 worker member).symm.trans ready)

variable [World κ] [MarkerStore (StateM κ)] {round : σ → Procedure (Round σ)} {outside : Stage κ → Stage κ → Prop}
  {mishaps : Prop} {start company : Company σ κ} {turns : Nat}

/-- Between the turns every task is ready for a stop. -/
theorem Course.heedful (course : Course round outside mishaps start turns company) (heedful : start.Heedful)
    (rounds : ∀ state, Crew.Heedful (round state)) : company.Heedful := by
  induction course with
  | start => exact heedful
  | @turn _ company worker _ member ih =>
    obtain ⟨rest, stage, _, ⟨_, turned⟩ | ⟨waits, turned⟩⟩ := Crew.turn_cases rounds company.crew (ih worker member)
    · rw [turned]
      exact ih.retire worker stage _
    · rw [turned]
      intro other member
      rcases List.mem_append.mp member with old | new
      · exact ih other ((company.crew.others_sublist worker).subset old)
      · cases List.mem_singleton.mp new
        exact waits
  | attend _ _ ih | outside _ _ ih => exact ih
  | mishap _ _ _ _ ih => exact ih.retire _ _ _

theorem Course.numbered (course : Course round outside mishaps start turns company) (numbered : start.crew.Numbered) :
    company.crew.Numbered := by
  induction course with
  | start => exact numbered
  | @turn _ _ worker _ _ ih => exact ih.turn worker
  | attend _ _ ih | outside _ _ ih => exact ⟨ih.distinct, ih.issued⟩
  | mishap _ _ _ _ ih => exact ih.retire _ _ _

/-- A batch of tasks has its turns one after another. -/
theorem Course.batch (course : Course round outside mishaps start turns company) {batch : List (Worker σ)}
    (distinct : (batch.map Worker.number).Nodup) (members : ∀ worker ∈ batch, worker ∈ company.crew.workers) :
    ∃ more, Course round outside mishaps start more
      { company with crew := batch.foldl (Crew.turn round) company.crew } := by
  induction batch generalizing turns company with
  | nil => exact ⟨turns, course⟩
  | cons worker batch ih =>
    obtain ⟨fresh, distinct⟩ := List.nodup_cons.mp distinct
    obtain ⟨member, members⟩ := List.forall_mem_cons.mp members
    refine ih (course.turn member) distinct fun other among => ?_
    have different : other.number ≠ worker.number := fun same => fresh (same ▸ List.mem_map_of_mem among)
    exact company.crew.mem_turn (members other among) different

theorem numbered_batch (batch : List (Worker σ)) {crew : Crew σ κ} (numbered : crew.Numbered) :
    (batch.foldl (Crew.turn round) crew).Numbered := by
  induction batch generalizing crew with
  | nil => exact numbered
  | cons worker batch ih => exact ih (numbered.turn worker)

/-- What a crew does until nobody can go on is a course of turns. -/
theorem Course.settle (course : Course round outside mishaps start turns company) (numbered : company.crew.Numbered)
    (batches : Nat) : ∃ more, Course round outside mishaps start more
      { company with crew := company.crew.settle round batches } := by
  induction batches generalizing turns company with
  | zero => exact ⟨turns, course⟩
  | succ batches ih =>
    have ready : company.crew.ready.Perm (company.crew.workers.filter (·.rest.isReady company.crew.stage)) :=
      List.mergeSort_perm _ _
    have among : ∀ worker ∈ company.crew.ready, worker ∈ company.crew.workers :=
      fun worker member => (List.mem_filter.mp (ready.subset member)).1
    have distinct : (company.crew.ready.map Worker.number).Nodup :=
      (ready.map Worker.number).nodup_iff.mpr (numbered.distinct.sublist (List.filter_sublist.map Worker.number))
    obtain ⟨_, onward⟩ := course.batch distinct among
    rw [Crew.settle]
    split
    next => exact ⟨turns, course⟩
    next => exact ih onward (numbered_batch _ numbered)

end Company

/-- Duties of which none has begun. -/
structure Crew.Fresh {κ : Type} (orders : Orders) (stage : Stage κ) (crew : Crew Duty κ) : Prop where
  stage : crew.stage = stage
  numbered : crew.Numbered
  duties : ∀ worker ∈ crew.workers, ∃ duty : Duty, worker.rest = duty.round orders

theorem DutyCrew.all_fresh {κ : Type} (orders : Orders) (stage : Stage κ) :
    (DutyCrew.all orders stage).crew.Fresh orders stage := by
  have begun : ∀ (duties : List Duty) (crew : Crew Duty κ), crew.Fresh orders stage →
      (duties.foldl (fun crew duty => crew.add duty.name (duty.round orders)) crew).Fresh orders stage := by
    intro duties
    induction duties with
    | nil => exact fun _ fresh => fresh
    | cons duty duties ih =>
      refine fun crew fresh => ih _ ⟨fresh.stage, fresh.numbered.add duty.name _, fun worker member => ?_⟩
      rcases List.mem_append.mp member with old | new
      · exact fresh.duties worker old
      · cases List.mem_singleton.mp new
        exact ⟨duty, rfl⟩
  exact begun _ _ ⟨rfl, ⟨List.nodup_nil, nofun⟩, nofun⟩

theorem DutyCrew.all_size {κ : Type} (orders : Orders) (stage : Stage κ) :
    (DutyCrew.all orders stage).crew.size = (Duty.all orders stage.now).length := by
  have begun : ∀ (duties : List Duty) (crew : Crew Duty κ),
      (duties.foldl (fun crew duty => crew.add duty.name (duty.round orders)) crew).size = crew.size + duties.length := by
    intro duties
    induction duties with
    | nil => exact fun _ => rfl
    | cons duty duties ih =>
      intro crew
      rw [List.foldl_cons, ih, Crew.size, Crew.size, Crew.add, List.length_append, List.length_singleton, List.length_cons]
      omega
  exact (begun _ _).trans (Nat.zero_add _)

theorem Crew.Fresh.heedful {κ : Type} {orders : Orders} {stage : Stage κ} {crew : Crew Duty κ}
    (fresh : crew.Fresh orders stage) (main : Procedure (Outcome Unit)) : (Company.mk crew main).Heedful := by
  intro worker member
  obtain ⟨duty, same⟩ := fresh.duties worker member
  rw [same]
  exact duty.round_poised orders

/-- A node without backups that does all its other duties every second. -/
def Orders.plain : Orders where
  host := "host-1"
  watches := ⟨.ofSeconds 1, .ofSeconds 1, .ofSeconds 1, ⟨.ofSeconds 1, .ofSeconds 1, 50⟩, .ofSeconds 1⟩
  backups := none

/-- A world that notes every call and answers none. -/
structure Diary where
  calls : List Call := []
  deriving DecidableEq, Repr

instance : World Diary where
  call made stage := (.never, { stage with world := ⟨stage.world.calls ++ [made]⟩ })

instance : MarkerStore (StateM Diary) where
  read _ := fun diary => (.ok none, diary)
  write _ _ := fun diary => (.ok (), diary)
  remove _ := fun diary => (.ok (), diary)

end QuorumWarden
