import Mathlib
import QuorumWarden.Proofs.FenceTranscripts
import QuorumWarden.Proofs.PlayedGround
import QuorumWarden.Proofs.ReplayedDeeds

/-! A readonly fence that goes up while a release is under way. The release looks at the locks once and
lets the databases in later, so a lock that is taken in between does not hold it back. -/

namespace QuorumWarden

open QuorumWarden.Action

/-- The two ways to let writes in again. -/
inductive Release where
  | clearQuarantine
  | disableReadonly

def Release.action (host : String) : Release → Action Bool
  | clearQuarantine => Quarantine.lift host ⟨host⟩
  | disableReadonly => Readonly.disable host

namespace Deed

/-- What a fence does while it goes up and meets no failure. -/
inductive Engages (host : String) : Deed → Prop where
  | aside {deed : Deed} (outside : deed.Outside) : Engages host deed
  | lock : Engages host (.prompt (.writeMarker .readonlyLock "") (.ok ()))
  | list (names : List String) : Engages host (.call (.databases host) (.ok names))
  | close (database : String) : Engages host (.call (.setReadonly host database true) (.ok ()))
  | check (database : String) : Engages host (.call (.readonly host database) (.ok true))

/-- What a release does, and what it does only if it says that writes came back. -/
inductive Frees (host : String) (released : Bool) : Deed → Prop where
  | aside {deed : Deed} (outside : deed.Outside) : Frees host released deed
  | unlock (marker : Marker) : Frees host released (.prompt (.removeMarker marker) (.ok ()))
  | look (marker : Marker) (text : Option String) : Frees host released (.prompt (.readMarker marker) (.ok text))
  | list (names : List String) : Frees host released (.call (.databases host) (.ok names))
  | letIn (database : String) (writes : released = true) : Frees host released (.call (.setReadonly host database false) (.ok ()))

variable {host database : String} {released : Bool} {deed : Deed}

theorem Outside.flag? (outside : deed.Outside) (database : String) : deed.flag? database = none := by
  cases deed with
  | prompt asked reply => rfl
  | call made reply => cases made <;> first | rfl | exact outside.elim

theorem Outside.settled (outside : deed.Outside) (host : String) : deed.Settled host := by
  cases deed with
  | prompt asked reply => cases asked <;> trivial
  | call made reply => cases made <;> trivial

theorem Outside.unlocking (outside : deed.Outside) : ¬deed.Locks := by
  intro locks
  cases deed with
  | prompt asked reply => cases asked <;> first | exact outside | exact locks
  | call made reply => exact locks

theorem Engages.settled (engages : Engages host deed) : deed.Settled host := by
  cases engages with
  | aside outside => exact outside.settled host
  | lock => rfl
  | close database => exact ⟨rfl, rfl⟩
  | list names | check database => trivial

theorem Frees.settled (frees : Frees host released deed) : deed.Settled host := by
  cases frees with
  | aside outside => exact outside.settled host
  | unlock marker => rfl
  | letIn database writes => exact ⟨rfl, rfl⟩
  | look marker text | list names => trivial

theorem Engages.locks (engages : Engages host deed) (locks : deed.Locks) :
    deed = .prompt (.writeMarker .readonlyLock "") (.ok ()) := by
  cases engages with
  | aside outside => exact absurd locks outside.unlocking
  | lock => rfl
  | list names | close database | check database => exact locks.elim

theorem Frees.unlocking (frees : Frees host released deed) : ¬deed.Locks := by
  cases frees with
  | aside outside => exact outside.unlocking
  | unlock marker | look marker text | list names | letIn database writes => exact id

theorem Engages.flag? (engages : Engages host deed) : deed.flag? database ≠ some false := by
  cases engages with
  | aside outside => simp [outside.flag?]
  | close other => by_cases same : other = database <;> simp [Deed.flag?, same]
  | lock | list names | check other => simp [Deed.flag?]

theorem Frees.flag? (frees : Frees host released deed) : deed.flag? database ≠ some true := by
  cases frees with
  | aside outside => simp [outside.flag?]
  | letIn other writes => by_cases same : other = database <;> simp [Deed.flag?, same]
  | unlock marker | look marker text | list names => simp [Deed.flag?]

theorem Frees.of_flag (frees : Frees host released deed) (flag : deed.flag? database = some false) :
    released = true ∧ deed = .call (.setReadonly host database false) (.ok ()) := by
  cases frees with
  | aside outside => simp [outside.flag?] at flag
  | letIn other writes =>
    by_cases same : other = database
    · exact ⟨writes, by rw [same]⟩
    · simp [Deed.flag?, same] at flag
  | unlock marker | look marker text | list names => simp [Deed.flag?] at flag

end Deed

variable {host : String} {released : Bool} {trace : List (Program.Event Request.Reply)}

/-- A fence that goes up closes what it listed, and checks nothing before all of it is closed. -/
structure Engaging (host : String) (names : List String) (opening closing : List Deed) : Prop where
  deeds : ∀ deed ∈ opening ++ closing, deed.Engages host
  listed : .call (.databases host) (.ok names) ∈ opening
  unchecked : ∀ database, .call (.readonly host database) (.ok true) ∉ opening
  unlisted : ∀ database ∉ names, ∀ deed ∈ opening, deed.flag? database = none
  checked : ∀ database ∈ names, Readonly.isSystemDatabase database = false →
    .call (.readonly host database) (.ok true) ∈ closing
  still : ∀ database, ∀ deed ∈ closing, deed.flag? database = none

theorem engaging_enable {answer : Broadcast} (ran : Ran (Readonly.enable host) trace (.ok answer)) :
    ∃ names opening closing, Transcript trace (opening ++ closing) ∧ Engaging host names opening closing := by
  obtain ⟨ahead, names, middle, behind, told, outside⟩ := Readonly.transcript_enable ran
  obtain ⟨front, outside⟩ := List.forall_mem_append.mp outside
  obtain ⟨between, back⟩ := List.forall_mem_append.mp outside
  refine ⟨names, .prompt (.writeMarker .readonlyLock "") (.ok ()) :: (ahead ++ .call (.databases host) (.ok names) ::
    (flagDeeds host true (names.filter fun name => !Readonly.isSystemDatabase name) ++ middle)),
    checkDeeds host (names.filter fun name => !Readonly.isSystemDatabase name) ++ behind, by simpa using told, ?_⟩
  constructor
  · intro deed member
    simp only [List.cons_append, List.append_assoc, List.mem_cons, List.mem_append] at member
    rcases member with rfl | ahead | rfl | flag | middle | check | behind
    · exact .lock
    · exact .aside (front deed ahead)
    · exact .list names
    · obtain ⟨database, _, rfl⟩ := List.mem_map.mp flag
      exact .close database
    · exact .aside (between deed middle)
    · obtain ⟨database, _, rfl⟩ := List.mem_map.mp check
      exact .check database
    · exact .aside (back deed behind)
  · simp
  · intro database member
    simp only [List.mem_cons, List.mem_append, flagDeeds, List.mem_map] at member
    rcases member with same | member | same | ⟨_, _, same⟩ | member
    · cases same
    · exact front _ member
    · cases same
    · cases same
    · exact between _ member
  · intro database absent deed member
    simp only [List.mem_cons, List.mem_append] at member
    rcases member with rfl | member | rfl | member | member
    · rfl
    · exact (front deed member).flag? database
    · rfl
    · obtain ⟨other, listed, rfl⟩ := List.mem_map.mp member
      have different : other ≠ database := by
        intro same
        exact absurd (same ▸ List.mem_of_mem_filter listed) absent
      simp [Deed.flag?, different]
    · exact (between deed member).flag? database
  · intro database listed user
    have closed : database ∈ names.filter fun name => !Readonly.isSystemDatabase name := by simp [listed, user]
    exact List.mem_append_left behind (List.mem_map_of_mem closed)
  · intro database deed member
    rcases List.mem_append.mp member with member | member
    · obtain ⟨other, _, rfl⟩ := List.mem_map.mp member
      rfl
    · exact (back deed member).flag? database

/-- What a release does, one way or the other. -/
theorem Release.transcript {release : Release} (ran : Ran (release.action host) trace (.ok released)) :
    ∃ deeds, Transcript trace deeds ∧ (∀ deed ∈ deeds, deed.Frees host released) ∧
      (released = true → .prompt (.readMarker .readonlyLock) (.ok none) ∈ deeds) := by
  have frees : ∀ deeds, Readonly.Releases host released deeds → (∀ deed ∈ deeds, deed.Frees host released) ∧
      (released = true → .prompt (.readMarker .readonlyLock) (.ok none) ∈ deeds) := by
    intro deeds releases
    obtain ⟨fence, looks, rest, rfl, looked, writes, letsIn⟩ := releases
    have looking : ∀ deed ∈ looks, deed.Frees host released := by
      cases looked <;> simp [Deed.Frees.look]
    cases released with
    | false =>
      cases (letsIn : rest = [])
      exact ⟨by simpa using looking, by simp⟩
    | true =>
      obtain ⟨ahead, names, behind, rfl, outside⟩ := letsIn
      obtain ⟨front, back⟩ := List.forall_mem_append.mp outside
      refine ⟨?_, fun _ => ?_⟩
      · intro deed member
        simp only [List.mem_append, List.mem_cons] at member
        rcases member with member | member | rfl | member | member
        · exact looking deed member
        · exact .aside (front deed member)
        · exact .list names
        · obtain ⟨database, _, rfl⟩ := List.mem_map.mp member
          exact .letIn database rfl
        · exact .aside (back deed member)
      · cases looked with
        | unfenced => simp
        | zombie text | readonly text => cases writes
  cases release with
  | clearQuarantine =>
    obtain ⟨deeds, told, releases⟩ := Quarantine.transcript_lift ran
    obtain ⟨free, looked⟩ := frees deeds releases
    refine ⟨_, told, ?_, fun writes => by simp [looked writes]⟩
    have counts : (Deed.prompt (.count .quarantineClears) ()).Outside := trivial
    exact List.forall_mem_cons.mpr ⟨.unlock .zombieLock, List.forall_mem_cons.mpr ⟨.aside counts, free⟩⟩
  | disableReadonly =>
    obtain ⟨deeds, told, releases⟩ := Readonly.transcript_disable ran
    obtain ⟨free, looked⟩ := frees deeds releases
    refine ⟨_, told, ?_, fun writes => by simp [looked writes]⟩
    exact List.forall_mem_cons.mpr ⟨.unlock .readonlyLock, free⟩

/-- The fence reads a flag back, the release sets it, the fence takes its lock, and the release finds none. -/
def checkOf (host database : String) : Side × Deed := (.engaging, .call (.readonly host database) (.ok true))

def releaseOf (host database : String) : Side × Deed := (.releasing, .call (.setReadonly host database false) (.ok ()))

def lockTaken : Side × Deed := (.engaging, .prompt (.writeMarker .readonlyLock "") (.ok ()))

def lockMissed : Side × Deed := (.releasing, .prompt (.readMarker .readonlyLock) (.ok none))

/-- All that is known of a fence and a release that both returned: what each did, and what that made of the ground. -/
structure Beside (host : String) (names : List String) (released : Bool) (entries : List (Side × Deed))
    (before after : Ground) : Prop where
  up : ∃ opening closing, Side.engaging.own entries = opening ++ closing ∧ Engaging host names opening closing
  down : ∀ deed, (.releasing, deed) ∈ entries → deed.Frees host released
  looked : released = true → lockMissed ∈ entries
  ended : after = replay (entries.map Prod.snd) before
  reads : ∀ ahead entry behind, entries = ahead ++ entry :: behind →
    entry.2.Reads host (replay (ahead.map Prod.snd) before)

theorem pair_behind {ι : Type} {first second : ι} {front back : List ι} (ordered : [first, second].Sublist (front ++ back))
    (absent : first ∉ front) : [first, second].Sublist back := by
  obtain ⟨early, late, split, inFront, inBack⟩ := List.sublist_append_iff.mp ordered
  cases early with
  | nil => exact split ▸ inBack
  | cons entry early =>
    obtain ⟨rfl, _⟩ := List.cons.inj split
    exact absurd (inFront.subset (by simp)) absent

theorem pair_of_split {ι : Type} {second : ι} {behind : List ι} (late : second ∈ behind) (ahead : List ι) (first : ι) :
    [first, second].Sublist (ahead ++ first :: behind) :=
  ((List.singleton_sublist.mpr late).cons_cons first).trans (List.sublist_append_right ahead _)

namespace Beside

variable {names : List String} {entries ahead behind : List (Side × Deed)} {before after : Ground} {database : String}

theorem engages (beside : Beside host names released entries before after) {deed : Deed}
    (member : (.engaging, deed) ∈ entries) : deed.Engages host := by
  obtain ⟨opening, closing, own, engaging⟩ := beside.up
  apply engaging.deeds
  rw [← own]
  exact Side.mem_own.mpr member

theorem of_false (beside : Beside host names released entries before after) {entry : Side × Deed}
    (member : entry ∈ entries) (flag : entry.2.flag? database = some false) :
    released = true ∧ entry = releaseOf host database := by
  obtain ⟨side, deed⟩ := entry
  cases side with
  | engaging => exact absurd flag (beside.engages member).flag?
  | releasing =>
    obtain ⟨writes, rfl⟩ := (beside.down deed member).of_flag flag
    exact ⟨writes, rfl⟩

/-- From where nothing closes a database any more, it stays read-only unless it is let in. -/
theorem readonly_iff (beside : Beside host names released entries before after) (split : entries = ahead ++ behind)
    (unclosed : ∀ entry ∈ behind, entry.2.flag? database ≠ some true) :
    after.readonly database = true ↔
      (replay (ahead.map Prod.snd) before).readonly database = true ∧ releaseOf host database ∉ behind := by
  rw [beside.ended, split, List.map_append, replay_append, replay_readonly_iff (List.forall_mem_map.mpr unclosed)]
  refine and_congr_right fun _ => ⟨?_, ?_⟩
  · intro kept member
    apply kept _ (List.mem_map_of_mem member)
    simp [releaseOf, Deed.flag?]
  · intro absent deed member flag
    obtain ⟨entry, late, rfl⟩ := List.mem_map.mp member
    obtain ⟨_, same⟩ := beside.of_false (split ▸ List.mem_append_right ahead late) flag
    exact absent (same ▸ late)

theorem unlisted (beside : Beside host names released entries before after) (absent : database ∉ names) :
    after.readonly database = true ↔ before.readonly database = true ∧ releaseOf host database ∉ entries := by
  refine beside.readonly_iff (List.nil_append entries).symm ?_
  intro entry member
  obtain ⟨side, deed⟩ := entry
  cases side with
  | releasing => exact (beside.down deed member).flag?
  | engaging =>
    obtain ⟨opening, closing, own, engaging⟩ := beside.up
    have member : deed ∈ opening ++ closing := own ▸ Side.mem_own.mpr member
    rcases List.mem_append.mp member with early | late
    · simp [engaging.unlisted database absent deed early]
    · simp [engaging.still database deed late]

theorem listed (beside : Beside host names released entries before after) (named : database ∈ names)
    (user : Readonly.isSystemDatabase database = false) :
    after.readonly database = true ↔ ¬[checkOf host database, releaseOf host database].Sublist entries := by
  obtain ⟨opening, closing, own, engaging⟩ := beside.up
  have checked : .call (.readonly host database) (.ok true) ∈ Side.engaging.own entries :=
    own ▸ List.mem_append_right opening (engaging.checked database named user)
  -- the first check: what comes behind it has been set before, or is done by the release
  obtain ⟨ahead, behind, split, fresh⟩ := List.eq_append_cons_of_mem (Side.mem_own.mp checked)
  have stood : (replay (ahead.map Prod.snd) before).readonly database = true := (beside.reads ahead _ behind split rfl).symm
  have unclosed : ∀ entry ∈ checkOf host database :: behind, entry.2.flag? database ≠ some true := by
    intro entry member
    rcases List.mem_cons.mp member with rfl | late
    · simp [checkOf, Deed.flag?]
    · obtain ⟨side, deed⟩ := entry
      cases side with
      | releasing => exact (beside.down deed (split ▸ by simp [late])).flag?
      | engaging =>
        have ordered : [checkOf host database, (.engaging, deed)].Sublist entries :=
          split ▸ pair_of_split late ahead (checkOf host database)
        have closing := pair_behind (own ▸ Side.own_ordered ordered) (engaging.unchecked database)
        simp [engaging.still database deed (closing.subset (by simp))]
  rw [beside.readonly_iff split unclosed, and_iff_right stood, not_iff_not]
  constructor
  · intro member
    have late : releaseOf host database ∈ behind := by simpa [releaseOf, checkOf] using member
    exact split ▸ pair_of_split late ahead (checkOf host database)
  · intro ordered
    exact (pair_behind (split ▸ ordered) fresh).subset (by simp)

/-- A database is let in only by a release that found no lock before the lock was taken. -/
theorem lock_missed (beside : Beside host names released entries before after)
    (locked : after.markers.readonlyLock ≠ none) (freed : releaseOf host database ∈ entries) :
    released = true ∧ [lockMissed, lockTaken].Sublist entries := by
  have flag : (releaseOf host database).2.flag? database = some false := by simp [releaseOf, Deed.flag?]
  obtain ⟨writes, _⟩ := beside.of_false freed flag
  obtain ⟨ahead, behind, split⟩ := List.append_of_mem (beside.looked writes)
  have missed : (replay (ahead.map Prod.snd) before).markers.readonlyLock = none :=
    (beside.reads ahead _ behind split).symm
  have locks : ∃ entry ∈ lockMissed :: behind, entry.2.Locks := by
    by_contra spared
    have spared : ∀ entry ∈ lockMissed :: behind, ¬entry.2.Locks := fun entry member locks => spared ⟨entry, member, locks⟩
    apply locked
    rw [beside.ended, split, List.map_append, replay_append]
    exact replay_lock (List.forall_mem_map.mpr spared) missed
  obtain ⟨⟨side, deed⟩, member, locks⟩ := locks
  have taken : (side, deed) ∈ entries := split ▸ List.mem_append_right ahead member
  cases side with
  | releasing => exact absurd locks (beside.down deed taken).unlocking
  | engaging =>
    cases (beside.engages taken).locks locks
    have late : lockTaken ∈ behind := by simpa [lockTaken, lockMissed] using member
    exact ⟨writes, split ▸ pair_of_split late ahead lockMissed⟩

end Beside

variable {server : Server} {release : Release} {before after : Ground} {answer : Broadcast}
  {history : List (Side × Program.Event Request.Reply)}

theorem beside_of_interleaved (heeds : server.heeds = true)
    (interleaved : Interleaves server.shifting (Readonly.enable server.host).run (release.action server.host).run before
      history (.done (.ok answer)) (.done (.ok released)) after) :
    ∃ names, (.engaging, .call (.databases server.host) (.ok names)) ∈ record history ∧
      Beside server.host names released (record history) before after := by
  obtain ⟨names, opening, closing, up, engaging⟩ := engaging_enable interleaved.engaged
  obtain ⟨freeing, down, frees, looked⟩ := Release.transcript interleaved.released
  have ownUp : Side.engaging.own (record history) = opening ++ closing := (own_record _ history).trans up.filterMap
  have ownDown : Side.releasing.own (record history) = freeing := (own_record _ history).trans down.filterMap
  have told : Transcript (history.map Prod.snd) ((record history).map Prod.snd) := by
    rw [record_deeds]
    apply Transcript.of_deeds
    intro event member
    obtain ⟨⟨side, _⟩, asked, rfl⟩ := List.mem_map.mp member
    cases side with
    | engaging => exact up.deed _ (Side.mem_own.mpr asked)
    | releasing => exact down.deed _ (Side.mem_own.mpr asked)
  have engages : ∀ deed, (.engaging, deed) ∈ record history → deed.Engages server.host :=
    fun deed member => engaging.deeds deed (ownUp ▸ Side.mem_own.mpr member)
  have free : ∀ deed, (.releasing, deed) ∈ record history → deed.Frees server.host released :=
    fun deed member => frees deed (ownDown ▸ Side.mem_own.mpr member)
  have settled : ∀ deed ∈ (record history).map Prod.snd, deed.Settled server.host := by
    intro deed member
    obtain ⟨⟨side, deed⟩, done, rfl⟩ := List.mem_map.mp member
    cases side with
    | engaging => exact (engages deed done).settled
    | releasing => exact (free deed done).settled
  obtain ⟨ended, reads⟩ := interleaved.evolves.replayed heeds told settled
  have listed : (.engaging, .call (.databases server.host) (.ok names)) ∈ record history := by
    apply Side.mem_own.mp
    rw [ownUp]
    exact List.mem_append_left closing engaging.listed
  refine ⟨names, listed, ⟨opening, closing, ownUp, engaging⟩, free, ?_, ended, ?_⟩
  · intro writes
    exact Side.mem_own.mp (ownDown ▸ looked writes)
  · intro ahead entry behind split
    have split : (record history).map Prod.snd = ahead.map Prod.snd ++ entry.2 :: behind.map Prod.snd := by simp [split]
    exact reads _ _ _ split

/-- With the lock there in the end, a database is read-only exactly if the release did not let it in behind the
fence's back, and that takes a release that looked for the lock before it was taken. -/
theorem readonly_beside_release (heeds : server.heeds = true)
    (interleaved : Interleaves server.shifting (Readonly.enable server.host).run (release.action server.host).run before
      history (.done (.ok answer)) (.done (.ok released)) after) (locked : after.markers.readonlyLock ≠ none) :
    ∃ names, (.engaging, .call (.databases server.host) (.ok names)) ∈ record history ∧
      ∀ database, Readonly.isSystemDatabase database = false →
        (after.readonly database = true ↔
          if database ∈ names then ¬[checkOf server.host database, releaseOf server.host database].Sublist (record history)
          else before.readonly database = true ∧ releaseOf server.host database ∉ record history) ∧
        (releaseOf server.host database ∈ record history →
          released = true ∧ [lockMissed, lockTaken].Sublist (record history)) := by
  obtain ⟨names, listed, beside⟩ := beside_of_interleaved heeds interleaved
  refine ⟨names, listed, fun database user => ⟨?_, beside.lock_missed locked⟩⟩
  split
  next named => exact beside.listed named user
  next absent => exact beside.unlisted absent

private def plainNode : Playbook := { server := ⟨"host-1", ["postgres", "repmgr", "app"], true⟩ }

/-- The release is held up where it is about to let the database in. -/
private def heldUp : Playbook := { plainNode with silent := [.setReadonly "host-1" "app" false] }

private def clearingHeld := heldUp.plays (Quarantine.lift "host-1" ⟨"host-1"⟩).run {}

private def fencingMeanwhile := plainNode.plays (Readonly.enable "host-1").run clearingHeld.2.2

private def clearingOn := plainNode.plays clearingHeld.2.1 fencingMeanwhile.2.2

private def raceHistory : List (Side × Program.Event Request.Reply) :=
  clearingHeld.1.map (Prod.mk .releasing) ++ (fencingMeanwhile.1.map (Prod.mk .engaging) ++ (clearingOn.1.map (Prod.mk .releasing) ++ []))

private theorem race {law : Law Request Request.Reply Ground}
    (within : ∀ request before reply after, plainNode.server.law request before reply after → law request before reply after) :
    Interleaves law (Readonly.enable "host-1").run (Release.clearQuarantine.action "host-1").run {} raceHistory
      (.done (.ok {})) (.done (.ok true)) clearingOn.2.2 := by
  have fenced : fencingMeanwhile.2.1 = .done (.ok {}) := by cbv
  have freed : clearingOn.2.1 = .done (.ok true) := by cbv
  have clears : Program.Steps law _ _ _ _ _ := (heldUp.plays_steps (Quarantine.lift "host-1" ⟨"host-1"⟩).run {}).mono within
  have fences : Program.Steps law _ _ _ _ _ := (plainNode.plays_runs fenced).mono within
  have goes : Program.Steps law _ _ _ _ _ := (plainNode.plays_runs freed).mono within
  exact .releasing_first clears (.engaging_first fences (.releasing_first goes .refl))

/-- A release that is overtaken by the fence lets in what the fence has closed and checked. -/
theorem overtaken_release : ∃ history answer after,
    Interleaves plainNode.server.shifting (Readonly.enable "host-1").run (Release.clearQuarantine.action "host-1").run {}
      history (.done (.ok answer)) (.done (.ok true)) after ∧
    after.markers.readonlyLock ≠ none ∧ releaseOf "host-1" "app" ∈ record history ∧
    [lockMissed, lockTaken].Sublist (record history) := by
  have run := race plainNode.server.law_shifting
  have locked : clearingOn.2.2.markers.readonlyLock ≠ none := by decide +kernel
  have freed : releaseOf "host-1" "app" ∈ record raceHistory := by
    have lets : ⟨.awaitOrStop (.call (.setReadonly "host-1" "app" false)), some (.ok ())⟩ ∈ clearingOn.1 :=
      List.mem_of_mem_head? (by cbv)
    have turn : (.releasing, ⟨.awaitOrStop (.call (.setReadonly "host-1" "app" false)), some (.ok ())⟩) ∈ raceHistory := by
      simp [raceHistory, lets]
    exact List.mem_filterMap.mpr ⟨_, turn, rfl⟩
  obtain ⟨_, _, beside⟩ := readonly_beside_release rfl run locked
  exact ⟨_, _, _, run, locked, freed, ((beside "app" rfl).2 freed).2⟩

private def grownServer : Server := ⟨"host-1", ["postgres", "repmgr", "app", "billing"], true⟩

private def fencingFirst := plainNode.plays (Readonly.enable "host-1").run {}

private def clearingLast := { plainNode with server := grownServer }.plays (Quarantine.lift "host-1" ⟨"host-1"⟩).run fencingFirst.2.2

/-- Both operations return and the lock is there, but a database is writable: one that was let in between, or one
that was made after the fence had listed them. -/
theorem locked_and_writable :
    (∃ history answer after, Interleaves plainNode.server.law (Readonly.enable "host-1").run
        (Release.clearQuarantine.action "host-1").run {} history (.done (.ok answer)) (.done (.ok true)) after ∧
      after.markers.readonlyLock ≠ none ∧ "app" ∈ plainNode.server.userDatabases ∧ after.readonly "app" = false) ∧
    ∃ trace answer between quiet after, Program.Runs plainNode.server.law (Readonly.enable "host-1").run {} trace
        (.ok answer) between ∧
      Program.Runs grownServer.law (Release.clearQuarantine.action "host-1").run between quiet (.ok false) after ∧
      after.markers.readonlyLock ≠ none ∧ "billing" ∈ grownServer.userDatabases ∧ after.readonly "billing" = false := by
  constructor
  · exact ⟨_, _, _, race fun _ _ _ _ answered => answered, by decide +kernel, by decide +kernel, by decide +kernel⟩
  · have fenced : fencingFirst.2.1 = .done (.ok {}) := by cbv
    have freed : clearingLast.2.1 = .done (.ok false) := by cbv
    have fences := plainNode.plays_runs fenced
    have clears : Program.Runs grownServer.law _ _ _ _ _ := Playbook.plays_runs freed
    exact ⟨_, _, _, _, _, fences, clears, by decide +kernel, by decide +kernel, by decide +kernel⟩

end QuorumWarden
