import QuorumWarden.Proofs.KeptMarkers

/-! The ledger over files beside the ledger over memory. Whatever is done with them, both answer by what was done last,
and the directory holds the files of the markers that are set. -/

namespace QuorumWarden

namespace Fence

/-- What there is to be done with a ledger. -/
inductive Operation where
  | state
  | isZombie
  | deferredPrimary
  | takeZombieLock (deferredTo : String)
  | dropZombieLock
  | isReadonlyLocked
  | takeReadonlyLock
  | dropReadonlyLock
  | isRegistered
  | register (hostname : String)
  | unregister
  deriving DecidableEq, Repr

inductive Answer where
  | done
  | state (found : FenceState)
  | flag (set : Bool)
  | host (name : Option String)
  deriving DecidableEq, Repr

namespace Operation

section

variable {m : Type → Type} [Monad m] [MarkerStore m]

def perform : Operation → ExceptT Failure m Answer
  | state => return .state (← Fence.state)
  | isZombie => return .flag (← Fence.isZombie)
  | deferredPrimary => return .host (← Fence.deferredPrimary)
  | takeZombieLock deferredTo => do
    Fence.takeZombieLock deferredTo
    return .done
  | dropZombieLock => do
    Fence.dropZombieLock
    return .done
  | isReadonlyLocked => return .flag (← Fence.isReadonlyLocked)
  | takeReadonlyLock => do
    Fence.takeReadonlyLock
    return .done
  | dropReadonlyLock => do
    Fence.dropReadonlyLock
    return .done
  | isRegistered => return .flag (← Fence.isRegistered)
  | register hostname => do
    Fence.register hostname
    return .done
  | unregister => do
    Fence.unregister
    return .done

/-- Performs one operation after the other, whatever comes of each. -/
def performAll (operations : List Operation) : m (List (Outcome Answer)) :=
  operations.mapM fun operation => operation.perform.run

end

/-- Opens the ledger on a directory again for each visit, and performs operations there. -/
def visitFiles (directory : String) (visits : List (List Operation)) : StateM FileTree (List (List (Outcome Answer))) :=
  visits.mapM fun operations => (performAll operations : MarkerFiles.M _).run ⟨directory⟩

/-- The same on memory that is kept from visit to visit. -/
def visitMemory (visits : List (List Operation)) : StateM Markers (List (List (Outcome Answer))) :=
  visits.mapM performAll

/-- What the operation leaves of a marker, if it is one on that marker. -/
def leaves : Operation → Marker → Option (Option String)
  | takeZombieLock deferredTo, .zombieLock => some (some (Text.trim deferredTo))
  | dropZombieLock, .zombieLock => some none
  | takeReadonlyLock, .readonlyLock => some (some "")
  | dropReadonlyLock, .readonlyLock => some none
  | register hostname, .registration => some (some hostname)
  | unregister, .registration => some none
  | _, _ => none

end Operation

/-- What the last operation on a marker has left of it. -/
def left (past : List Operation) (marker : Marker) : Option String :=
  (past.reverse.findSome? fun operation => operation.leaves marker).join

/-- The state of a node whose locks have been left like that. -/
def stateOf (texts : Marker → Option String) : FenceState :=
  match texts .zombieLock with
  | some host => .zombie (if host = "" then none else some host)
  | none => if (texts .readonlyLock).isSome then .readonly else .unfenced

def Operation.answer (texts : Marker → Option String) : Operation → Answer
  | .state => .state (stateOf texts)
  | .isZombie => .flag (texts .zombieLock).isSome
  | .deferredPrimary => .host (match stateOf texts with | .zombie deferredTo => deferredTo | _ => none)
  | .isReadonlyLocked => .flag (texts .readonlyLock).isSome
  | .isRegistered => .flag (texts .registration).isSome
  | _ => .done

/-- The answers to operations in turn, each after those before it. -/
def answersFrom (past : List Operation) : List Operation → List Answer
  | [] => []
  | operation :: rest => operation.answer (left past) :: answersFrom (past ++ [operation]) rest

theorem left_concat (past : List Operation) (operation : Operation) (marker : Marker) :
    left (past ++ [operation]) marker = (operation.leaves marker).getD (left past marker) := by
  rw [left, List.reverse_append, List.reverse_singleton, List.singleton_append, List.findSome?_cons]
  cases operation.leaves marker <;> rfl

variable {past : List Operation} {markers : Markers}

/-- A host is trimmed before it is written, so that reading it again takes nothing off. -/
theorem nonBlank?_of_left {host : String} (written : left past .zombieLock = some host) :
    Text.nonBlank? host = if host = "" then none else some host := by
  obtain ⟨operation, _, left⟩ := List.exists_of_findSome?_eq_some (Option.join_eq_some_iff.mp written)
  cases operation <;> simp only [Operation.leaves, reduceCtorEq, Option.some.injEq] at left
  subst left
  rw [Text.nonBlank?_trim, Text.nonBlank?]
  simp only [String.isEmpty_iff]

private theorem state_inMemory (markers : Markers) :
    (Operation.state.perform : ExceptT Failure (StateM Markers) Answer).run markers =
      (.ok (.state (match markers.get .zombieLock with
        | some text => .zombie (Text.nonBlank? text)
        | none => if (markers.get .readonlyLock).isSome then .readonly else .unfenced)), markers) := by
  rcases markers with ⟨_ | _, _ | _, _⟩ <;> rfl

private theorem deferredPrimary_inMemory (markers : Markers) :
    (Operation.deferredPrimary.perform : ExceptT Failure (StateM Markers) Answer).run markers =
      (.ok (.host ((markers.get .zombieLock).bind Text.nonBlank?)), markers) := rfl

/-- In memory each marker is as the last operation on it left it. -/
theorem perform_inMemory (same : markers.get = left past) (operation : Operation) :
    ∃ after : Markers, after.get = left (past ++ [operation]) ∧
      (operation.perform : ExceptT Failure (StateM Markers) Answer).run markers =
        (.ok (operation.answer (left past)), after) := by
  have changed {marker : Marker} {text : Option String}
      (leaves : ∀ other, operation.leaves other = if other = marker then some text else none) :
      (markers.set marker text).get = left (past ++ [operation]) := by
    funext other
    rw [left_concat, leaves]
    by_cases here : other = marker
    · rw [here, Markers.get_set_self, if_pos rfl]
      rfl
    · rw [Markers.get_set_of_ne _ _ here, if_neg here, same]
      rfl
  have asked (leaves : ∀ other, operation.leaves other = none) : markers.get = left (past ++ [operation]) := by
    funext other
    rw [left_concat, leaves, same]
    rfl
  cases operation with
  | state =>
    refine ⟨markers, asked fun _ => rfl, ?_⟩
    rw [state_inMemory, same, Operation.answer, stateOf]
    cases written : left past .zombieLock with
    | some host => simp only [nonBlank?_of_left written]
    | none => rfl
  | deferredPrimary =>
    refine ⟨markers, asked fun _ => rfl, ?_⟩
    rw [deferredPrimary_inMemory, same, Operation.answer, stateOf]
    cases written : left past .zombieLock with
    | some host => simp only [Option.bind_some, nonBlank?_of_left written]
    | none => cases left past .readonlyLock <;> rfl
  | isZombie | isReadonlyLocked | isRegistered =>
    rw [← same]
    exact ⟨markers, asked fun _ => rfl, rfl⟩
  | takeZombieLock | dropZombieLock | takeReadonlyLock | dropReadonlyLock | register | unregister =>
    exact ⟨_, changed (by rintro (_ | _ | _) <;> rfl), rfl⟩

theorem performAll_inMemory (operations : List Operation) (same : markers.get = left past) :
    ∃ after : Markers, after.get = left (past ++ operations) ∧
      (Operation.performAll operations : StateM Markers _) markers =
        ((answersFrom past operations).map .ok, after) := by
  induction operations generalizing past markers with
  | nil => exact ⟨markers, by rw [same, List.append_nil], rfl⟩
  | cons operation rest ih =>
    obtain ⟨between, kept, first⟩ := perform_inMemory same operation
    obtain ⟨after, ended, onward⟩ := ih kept
    refine ⟨after, by rw [ended, List.append_assoc, List.singleton_append], ?_⟩
    rw [Operation.performAll] at onward
    rw [Operation.performAll, List.mapM_cons]
    simp only [bind, StateT.bind, first, onward]
    rfl

theorem answersFrom_append (past first second : List Operation) :
    answersFrom past (first ++ second) = answersFrom past first ++ answersFrom (past ++ first) second := by
  induction first generalizing past with
  | nil => rw [List.append_nil]; rfl
  | cons operation first ih =>
    rw [List.cons_append, answersFrom, ih, answersFrom, List.cons_append, List.append_assoc, List.singleton_append]

/-- Memory that is kept while the ledger is opened again and again. -/
theorem visits_inMemory (visits : List (List Operation)) (same : markers.get = left past) :
    ∃ (answers : List (List (Outcome Answer))) (after : Markers), after.get = left (past ++ visits.flatten) ∧
      answers.flatten = (answersFrom past visits.flatten).map .ok ∧
      Operation.visitMemory visits markers = (answers, after) := by
  induction visits generalizing past markers with
  | nil => exact ⟨[], markers, by rw [same, List.flatten_nil, List.append_nil], rfl, rfl⟩
  | cons visit visits ih =>
    obtain ⟨between, kept, first⟩ := performAll_inMemory visit same
    obtain ⟨answers, after, ended, told, onward⟩ := ih kept
    refine ⟨(answersFrom past visit).map .ok :: answers, after, ?_, ?_, ?_⟩
    · rw [ended, List.flatten_cons, List.append_assoc]
    · rw [List.flatten_cons, List.flatten_cons, told, answersFrom_append, List.map_append]
    · rw [Operation.visitMemory] at onward
      rw [Operation.visitMemory, List.mapM_cons]
      simp only [bind, StateT.bind, first, onward]
      rfl

end Fence

namespace MarkerFiles

/-- From a tree and markers that are the same, both come to the same result, and are the same again. -/
def Mirrors {α : Type} (files : MarkerFiles) (onFiles : M α) (inMemory : StateM Markers α) : Prop :=
  ∀ tree markers, files.Keeps tree markers → ∃ result treeAfter markersAfter, onFiles files tree = (result, treeAfter) ∧
    inMemory markers = (result, markersAfter) ∧ files.Keeps treeAfter markersAfter

namespace Mirrors

variable {files : MarkerFiles} {α β : Type}

theorem pure (value : α) : Mirrors files (Pure.pure value) (Pure.pure value) :=
  fun tree markers keeps => ⟨value, tree, markers, rfl, rfl, keeps⟩

theorem bind {onFiles : M α} {inMemory : StateM Markers α} {nextOnFiles : α → M β} {nextInMemory : α → StateM Markers β}
    (first : Mirrors files onFiles inMemory)
    (next : ∀ result, Mirrors files (nextOnFiles result) (nextInMemory result)) :
    Mirrors files (onFiles >>= nextOnFiles) (inMemory >>= nextInMemory) := by
  intro tree markers keeps
  obtain ⟨middle, treeBetween, markersBetween, reached, same, kept⟩ := first tree markers keeps
  obtain ⟨result, treeAfter, markersAfter, ended, sameEnd, keptEnd⟩ := next middle treeBetween markersBetween kept
  refine ⟨result, treeAfter, markersAfter, ?_, ?_, keptEnd⟩
  · simp only [Bind.bind, ReaderT.bind, StateT.bind, reached]
    exact ended
  · simp only [Bind.bind, StateT.bind, same]
    exact sameEnd

theorem mapM {γ : Type} {onFiles : γ → M α} {inMemory : γ → StateM Markers α}
    (each : ∀ item, Mirrors files (onFiles item) (inMemory item)) (items : List γ) :
    Mirrors files (items.mapM onFiles) (items.mapM inMemory) := by
  induction items with
  | nil => exact pure []
  | cons item items ih =>
    rw [List.mapM_cons, List.mapM_cons]
    exact (each item).bind fun result => ih.bind fun results => pure (result :: results)

section

variable {onFiles : ExceptT Failure M α} {inMemory : ExceptT Failure (StateM Markers) α}

theorem attempt {nextOnFiles : α → ExceptT Failure M β} {nextInMemory : α → ExceptT Failure (StateM Markers) β}
    (first : Mirrors files onFiles.run inMemory.run)
    (next : ∀ result, Mirrors files (nextOnFiles result).run (nextInMemory result).run) :
    Mirrors files (onFiles >>= nextOnFiles).run (inMemory >>= nextInMemory).run := by
  rw [ExceptT.run_bind, ExceptT.run_bind]
  refine Mirrors.bind first fun outcome => ?_
  cases outcome with
  | ok result => exact next result
  | error failure => exact pure (Except.error failure)

theorem returning (first : Mirrors files onFiles.run inMemory.run) (read : α → β) :
    Mirrors files (return read (← onFiles) : ExceptT Failure M β).run
      (return read (← inMemory) : ExceptT Failure (StateM Markers) β).run :=
  first.attempt fun result => pure (Except.ok (read result))

theorem inContext (context : String) (first : Mirrors files onFiles.run inMemory.run) :
    Mirrors files (QuorumWarden.inContext context onFiles).run (QuorumWarden.inContext context inMemory).run :=
  first.bind fun _ => pure _

end

section

variable (room : files.HasRoom)
include room

theorem read (marker : Marker) : Mirrors files (Fence.read marker : ExceptT Failure M _).run
    (Fence.read marker : ExceptT Failure (StateM Markers) _).run :=
  fun tree markers keeps => ⟨_, tree, markers, congrArg (·, tree) (keeps.read room marker), rfl, keeps⟩

theorem write (marker : Marker) (text : String) : Mirrors files (Fence.write marker text : ExceptT Failure M _).run
    (Fence.write marker text : ExceptT Failure (StateM Markers) _).run := by
  intro tree markers keeps
  obtain ⟨after, written, kept⟩ := keeps.write room marker text
  exact ⟨_, after, _, written, rfl, kept⟩

theorem remove (marker : Marker) : Mirrors files (Fence.remove marker : ExceptT Failure M _).run
    (Fence.remove marker : ExceptT Failure (StateM Markers) _).run := by
  intro tree markers keeps
  obtain ⟨after, removed, kept⟩ := keeps.remove room marker
  exact ⟨_, after, _, removed, rfl, kept⟩

theorem holds (marker : Marker) : Mirrors files (Fence.holds marker : ExceptT Failure M _).run
    (Fence.holds marker : ExceptT Failure (StateM Markers) _).run := (read room marker).returning _

theorem state : Mirrors files (Fence.state : ExceptT Failure M _).run
    (Fence.state : ExceptT Failure (StateM Markers) _).run := by
  refine (read room .zombieLock).attempt fun zombie => ?_
  cases zombie with
  | some text => exact pure _
  | none => exact (holds room .readonlyLock).attempt fun locked => by cases locked <;> exact pure _

theorem perform (operation : Fence.Operation) : Mirrors files (operation.perform : ExceptT Failure M _).run
    (operation.perform : ExceptT Failure (StateM Markers) _).run := by
  cases operation with
  | state => exact (state room).returning _
  | isZombie | isReadonlyLocked | isRegistered => exact (holds room _).returning _
  | deferredPrimary => exact ((read room _).returning _).returning _
  | takeZombieLock | takeReadonlyLock | register => exact ((write room _ _).inContext _).attempt fun _ => pure _
  | dropZombieLock | dropReadonlyLock | unregister => exact ((remove room _).inContext _).attempt fun _ => pure _

theorem performAll (operations : List Fence.Operation) :
    Mirrors files (Fence.Operation.performAll operations) (Fence.Operation.performAll operations) :=
  mapM (perform room) operations

end

private theorem run_mapM {γ : Type} (onFiles : γ → M α) (items : List γ) :
    items.mapM onFiles files = items.mapM fun item => (onFiles item).run files := by
  induction items with
  | nil => rfl
  | cons item items ih =>
    rw [List.mapM_cons, List.mapM_cons, ← ih]
    rfl

/-- Memory goes on where the ledger on files is opened again. -/
theorem visits (room : files.HasRoom) (visits : List (List Fence.Operation)) :
    Mirrors files (fun files => Fence.Operation.visitFiles files.directory visits)
      (Fence.Operation.visitMemory visits) := by
  have opened : (visits.mapM Fence.Operation.performAll : M _) =
      fun files => Fence.Operation.visitFiles files.directory visits := funext fun files => run_mapM _ visits
  rw [← opened]
  exact mapM (performAll room) visits

end Mirrors

end MarkerFiles

/-- A ledger on the files of a directory that was missing answers as one on memory, and both answer by what was done
last. The operations may end anywhere, so after each of them the directory holds the files of the markers that are
set. -/
theorem Fence.files_refine_memory (directory : String) (tree : FileTree) (lacks : tree.Lacks directory)
    (room : MarkerFiles.HasRoom ⟨directory⟩) (visits : List (List Operation)) :
    let onFiles := Operation.visitFiles directory visits tree
    let inMemory := Operation.visitMemory visits {}
    onFiles.1 = inMemory.1 ∧ inMemory.1.flatten = (answersFrom [] visits.flatten).map .ok ∧
      onFiles.2.listingAt directory = Marker.files (left visits.flatten) some := by
  intro onFiles inMemory
  have unset (marker : Marker) : ({} : Markers).get marker = none := by cases marker <;> rfl
  have keeps : MarkerFiles.Keeps ⟨directory⟩ tree {} := .missing lacks unset
  have forgotten : ({} : Markers).get = left [] := funext unset
  obtain ⟨answers, treeAfter, markersAfter, ran, mirrored, kept⟩ :=
    MarkerFiles.Mirrors.visits room visits tree {} keeps
  obtain ⟨_, _, lasting, told, remembered⟩ := visits_inMemory visits forgotten
  obtain ⟨rfl, rfl⟩ := Prod.mk.inj (mirrored.symm.trans remembered)
  have onFiles_eq : onFiles = (answers, treeAfter) := ran
  have inMemory_eq : inMemory = (answers, markersAfter) := mirrored
  rw [onFiles_eq, inMemory_eq]
  exact ⟨rfl, told, lasting ▸ kept.listing room⟩

theorem Fence.locks_outlast_visit :
    let visits : List (List Operation) :=
      [[.takeReadonlyLock, .takeZombieLock " node-2 ", .register "node-1"], [.state, .dropZombieLock, .state]]
    let onFiles := Operation.visitFiles "var/warden" visits .empty
    FileTree.empty.Lacks "var/warden" ∧ MarkerFiles.HasRoom ⟨"var/warden"⟩ ∧
      onFiles.1.flatten = [.done, .done, .done, .state (.zombie (some "node-2")), .done, .state .readonly].map .ok ∧
      onFiles.2.listingAt "var/warden" = [(".registration-cert", some "node-1"), ("readonly.lock", some "")] := by
  intro visits onFiles
  have lacks : FileTree.empty.Lacks "var/warden" := by
    have names : Path.components "var/warden" = ["var", "warden"] := by rfl
    refine ⟨by rfl, FileTree.straight_of_plain ?_, by rfl⟩
    rw [names]
    intro name member
    rcases List.mem_pair.mp member with rfl | rfl <;> exact ⟨by decide, by decide⟩
  have room : MarkerFiles.HasRoom ⟨"var/warden"⟩ := by
    intro marker
    cases marker <;> exact ⟨by rfl, by rfl⟩
  obtain ⟨same, told, listed⟩ := files_refine_memory "var/warden" .empty lacks room visits
  refine ⟨lacks, room, ?_, ?_⟩
  · change onFiles.1 = _ at same
    rw [same, told]
    rfl
  · exact listed.trans (by rfl)

end QuorumWarden
