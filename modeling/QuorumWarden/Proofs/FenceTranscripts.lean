import QuorumWarden.Proofs.FreeRuns
import QuorumWarden.Quarantine

/-! What the parts of a fence do if they return, deed by deed, whatever they are answered. A fence
that goes up checks its databases after it has set them all; one that comes down looks at both locks first. -/

namespace QuorumWarden

open QuorumWarden.Action

/-- What neither touches nor looks at the node's own markers and databases. -/
def Deed.Outside : Deed → Prop
  | .prompt .stopRequested _ | .prompt (.count _) _ => True
  | .call (.connect _) _ | .call (.listMembers _) _ | .call (.setPeerReadonly _ _) _ => True
  | _ => False

def flagDeeds (host : String) (enabled : Bool) (databases : List String) : List Deed :=
  databases.map fun database => .call (.setReadonly host database enabled) (.ok ())

def checkDeeds (host : String) (databases : List String) : List Deed :=
  databases.map fun database => .call (.readonly host database) (.ok true)

variable {host : String} {trace : List (Program.Event Request.Reply)}

namespace Fence

theorem transcript_write {marker : Marker} {text : String} {value : Unit} (ran : Ran (write marker text) trace (.ok value)) :
    Transcript trace [.prompt (.writeMarker marker text) (.ok ())] := by
  obtain ⟨reply, rfl, rfl⟩ := ran_answer ran
  exact .cons rfl .nil

theorem transcript_remove {marker : Marker} {value : Unit} (ran : Ran (remove marker) trace (.ok value)) :
    Transcript trace [.prompt (.removeMarker marker) (.ok ())] := by
  obtain ⟨reply, rfl, rfl⟩ := ran_answer ran
  exact .cons rfl .nil

theorem transcript_read {marker : Marker} {text : Option String} (ran : Ran (read marker) trace (.ok text)) :
    Transcript trace [.prompt (.readMarker marker) (.ok text)] := by
  obtain ⟨reply, rfl, rfl⟩ := ran_answer ran
  exact .cons rfl .nil

/-- The zombie lock is looked at, and the readonly lock if that is not there. -/
inductive Looked : FenceState → List Deed → Prop where
  | zombie (text : String) :
    Looked (.zombie (Text.nonBlank? text)) [.prompt (.readMarker .zombieLock) (.ok (some text))]
  | readonly (text : String) :
    Looked .readonly [.prompt (.readMarker .zombieLock) (.ok none), .prompt (.readMarker .readonlyLock) (.ok (some text))]
  | unfenced :
    Looked .unfenced [.prompt (.readMarker .zombieLock) (.ok none), .prompt (.readMarker .readonlyLock) (.ok none)]

theorem transcript_state {fence : FenceState} (ran : Ran state trace (.ok fence)) :
    ∃ looks, Transcript trace looks ∧ Looked fence looks := by
  obtain ⟨text, _, _, rfl, reads, onward⟩ := returned_bind ran
  have looked := transcript_read reads
  cases text with
  | some text =>
    obtain ⟨rfl, same⟩ := ran_pure onward
    cases same
    exact ⟨_, looked.append .nil, .zombie text⟩
  | none =>
    obtain ⟨held, rfl, holds⟩ := returned_last onward
    obtain ⟨text, rfl, reads⟩ := returned_last holds
    refine ⟨_, looked.append (transcript_read reads), ?_⟩
    cases text with
    | some text => exact .readonly text
    | none => exact .unfenced

end Fence

theorem Node.transcript_connect {session : Session} (ran : Ran (Node.connect host) trace (.ok session)) :
    session = ⟨host⟩ ∧ Transcript trace [.call (.connect host) (.ok ())] := by
  obtain ⟨_, rfl, dials⟩ := returned_last (returned_inContext ran)
  exact ⟨rfl, transcript_request dials⟩

namespace Readonly

theorem transcript_setEach {enabled : Bool} {databases : List String} {value : Unit}
    (ran : Ran (setEach ⟨host⟩ enabled databases) trace (.ok value)) :
    Transcript trace (flagDeeds host enabled databases) := by
  induction databases generalizing trace with
  | nil =>
    obtain ⟨rfl, _⟩ := ran_pure ran
    exact .nil
  | cons database databases ih =>
    obtain ⟨_, _, _, rfl, sets, rest⟩ := returned_bind ran
    exact (transcript_request sets).append (ih rest)

theorem transcript_setLocal {enabled : Bool} {databases : List String}
    (ran : Ran (setLocal ⟨host⟩ enabled) trace (.ok databases)) :
    ∃ names, databases = names.filter (fun name => !isSystemDatabase name) ∧
      Transcript trace (.call (.databases host) (.ok names) :: flagDeeds host enabled databases) := by
  obtain ⟨listed, _, _, rfl, users, onward⟩ := returned_bind ran
  obtain ⟨names, rfl, lists⟩ := returned_last users
  obtain ⟨_, rfl, sets⟩ := returned_last onward
  exact ⟨names, rfl, (transcript_request lists).append (transcript_setEach sets)⟩

theorem transcript_verify {databases : List String} {value : Unit}
    (ran : Ran (verify ⟨host⟩ databases) trace (.ok value)) : Transcript trace (checkDeeds host databases) := by
  induction databases generalizing trace with
  | nil =>
    obtain ⟨rfl, _⟩ := ran_pure ran
    exact .nil
  | cons database databases ih =>
    obtain ⟨flag, _, _, rfl, reads, rest⟩ := returned_bind ran
    cases flag with
    | true => exact (transcript_request reads).append (ih rest)
    | false => cases (ran_throw rest).2

theorem transcript_tellEach {enabled : Bool} {peers : List Member} {told answer : Broadcast}
    (ran : Ran (tellEach enabled peers told) trace (.ok answer)) :
    ∃ deeds, Transcript trace deeds ∧ ∀ deed ∈ deeds, deed.Outside := by
  induction peers generalizing trace told with
  | nil =>
    obtain ⟨rfl, _⟩ := ran_pure ran
    exact ⟨[], .nil, by simp⟩
  | cons peer peers ih =>
    obtain ⟨result, _, _, rfl, tells, rest⟩ := returned_bind ran
    have asked := transcript_settled tells
    cases result with
    | ok value =>
      obtain ⟨deeds, told, outside⟩ := ih rest
      exact ⟨_, asked.append told, by simpa [Deed.Outside] using outside⟩
    | error failure =>
      obtain ⟨_, _, _, rfl, counts, rest⟩ := returned_bind rest
      obtain ⟨deeds, told, outside⟩ := ih rest
      exact ⟨_, asked.append ((transcript_count counts).append told), by simpa [Deed.Outside] using outside⟩

theorem transcript_broadcast {enabled : Bool} {answer : Broadcast}
    (ran : Ran (broadcast host ⟨host⟩ enabled) trace (.ok answer)) :
    ∃ deeds, Transcript trace deeds ∧ ∀ deed ∈ deeds, deed.Outside := by
  obtain ⟨topology, _, _, rfl, fetches, onward⟩ := returned_bind ran
  obtain ⟨_, fetches, guards⟩ := transcript_guarded fetches
  obtain ⟨members, rfl, lists⟩ := returned_last (returned_inContext fetches)
  obtain ⟨deeds, told, outside⟩ := transcript_tellEach onward
  refine ⟨_, (guards _ (transcript_request lists)).append told, ?_⟩
  simpa [Deed.Outside] using outside

/-- The databases are listed, and every user database of the listing is let in. -/
def LetsIn (host : String) (deeds : List Deed) : Prop :=
  ∃ ahead names behind, deeds = ahead ++ .call (.databases host) (.ok names) ::
      (flagDeeds host false (names.filter fun name => !isSystemDatabase name) ++ behind) ∧
    ∀ deed ∈ ahead ++ behind, deed.Outside

/-- The fence was looked at, and databases were let in if and only if there was none. -/
def Releases (host : String) (released : Bool) (deeds : List Deed) : Prop :=
  ∃ fence looks rest, deeds = looks ++ rest ∧ Fence.Looked fence looks ∧ released = fence.allowsWrites ∧
    if released then LetsIn host rest else rest = []

theorem transcript_enable {answer : Broadcast} (ran : Ran (enable host) trace (.ok answer)) :
    ∃ ahead names middle behind, Transcript trace (.prompt (.writeMarker .readonlyLock "") (.ok ()) ::
        (ahead ++ .call (.databases host) (.ok names) ::
          (flagDeeds host true (names.filter fun name => !isSystemDatabase name) ++
            (middle ++ (checkDeeds host (names.filter fun name => !isSystemDatabase name) ++ behind))))) ∧
      ∀ deed ∈ ahead ++ (middle ++ behind), deed.Outside := by
  obtain ⟨_, _, _, rfl, takes, onward⟩ := returned_bind ran
  obtain ⟨session, _, _, rfl, connects, onward⟩ := returned_bind onward
  obtain ⟨_, connects, dialling⟩ := transcript_guarded connects
  obtain ⟨rfl, dialled⟩ := Node.transcript_connect connects
  obtain ⟨databases, _, _, rfl, sets, onward⟩ := returned_bind onward
  obtain ⟨_, sets, setting⟩ := transcript_guarded sets
  obtain ⟨names, rfl, set⟩ := transcript_setLocal sets
  obtain ⟨_, _, _, rfl, verifies, broadcasts⟩ := returned_bind onward
  obtain ⟨_, verifies, verifying⟩ := transcript_guarded verifies
  obtain ⟨behind, told, outside⟩ := transcript_broadcast broadcasts
  have written := Fence.transcript_write (returned_inContext takes)
  have checked := verifying _ (transcript_verify verifies)
  refine ⟨[.prompt .stopRequested false, .call (.connect host) (.ok ()), .prompt .stopRequested false], names,
    [.prompt .stopRequested false], behind, ?_, ?_⟩
  · simpa using written.append ((dialling _ dialled).append ((setting _ set).append (checked.append told)))
  · simpa [Deed.Outside] using outside

theorem transcript_disable {released : Bool} (ran : Ran (disable host) trace (.ok released)) :
    ∃ deeds, Transcript trace (.prompt (.removeMarker .readonlyLock) (.ok ()) :: deeds) ∧
      Releases host released deeds := by
  obtain ⟨_, _, _, rfl, drops, onward⟩ := returned_bind ran
  obtain ⟨fence, _, _, rfl, looks, onward⟩ := returned_bind onward
  have dropped := Fence.transcript_remove (returned_inContext drops)
  obtain ⟨looks, looking, looked⟩ := Fence.transcript_state looks
  split at onward
  next writes =>
    obtain ⟨session, _, _, rfl, connects, onward⟩ := returned_bind onward
    obtain ⟨_, connects, dialling⟩ := transcript_guarded connects
    obtain ⟨rfl, dialled⟩ := Node.transcript_connect connects
    obtain ⟨databases, _, _, rfl, sets, onward⟩ := returned_bind onward
    obtain ⟨_, sets, setting⟩ := transcript_guarded sets
    obtain ⟨names, rfl, set⟩ := transcript_setLocal sets
    obtain ⟨_, rfl, broadcasts⟩ := returned_last onward
    obtain ⟨behind, told, outside⟩ := transcript_broadcast broadcasts
    refine ⟨_, dropped.append (looking.append ((dialling _ dialled).append ((setting _ set).append told))),
      fence, looks, _, rfl, looked, writes.symm, ?_⟩
    refine ⟨[.prompt .stopRequested false, .call (.connect host) (.ok ()), .prompt .stopRequested false], names, behind,
      rfl, ?_⟩
    simpa [Deed.Outside] using outside
  next held =>
    obtain ⟨rfl, same⟩ := ran_pure onward
    cases same
    have held : fence.allowsWrites = false := by simpa using held
    exact ⟨_, dropped.append (looking.append .nil), fence, looks, [], rfl, looked, held.symm, rfl⟩

end Readonly

theorem Quarantine.transcript_lift {released : Bool} (ran : Ran (lift host ⟨host⟩) trace (.ok released)) :
    ∃ deeds, Transcript trace
        (.prompt (.removeMarker .zombieLock) (.ok ()) :: .prompt (.count .quarantineClears) () :: deeds) ∧
      Readonly.Releases host released deeds := by
  obtain ⟨_, _, _, rfl, drops, onward⟩ := returned_bind ran
  obtain ⟨_, _, _, rfl, counts, onward⟩ := returned_bind onward
  obtain ⟨fence, _, _, rfl, looks, onward⟩ := returned_bind onward
  have dropped := Fence.transcript_remove (returned_inContext drops)
  have counted := transcript_count counts
  obtain ⟨looks, looking, looked⟩ := Fence.transcript_state looks
  split at onward
  next writes =>
    obtain ⟨databases, _, _, rfl, sets, onward⟩ := returned_bind onward
    obtain ⟨_, sets, setting⟩ := transcript_guarded (returned_inContext sets)
    obtain ⟨names, rfl, set⟩ := Readonly.transcript_setLocal sets
    obtain ⟨_, rfl, broadcasts⟩ := returned_last onward
    obtain ⟨behind, told, outside⟩ := Readonly.transcript_broadcast broadcasts
    refine ⟨_, dropped.append (counted.append (looking.append ((setting _ set).append told))),
      fence, looks, _, rfl, looked, writes.symm, ?_⟩
    refine ⟨[.prompt .stopRequested false], names, behind, rfl, ?_⟩
    simpa [Deed.Outside] using outside
  next held =>
    obtain ⟨rfl, same⟩ := ran_pure onward
    cases same
    have held : fence.allowsWrites = false := by simpa using held
    exact ⟨_, dropped.append (counted.append (looking.append .nil)), fence, looks, [], rfl, looked, held.symm, rfl⟩

end QuorumWarden
