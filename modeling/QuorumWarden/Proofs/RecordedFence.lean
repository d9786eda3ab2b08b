import QuorumWarden.Proofs.ActionReturns
import QuorumWarden.Proofs.FenceTranscripts

/-! What putting up a fence or taking it down leaves on record if it returns, whatever the ports
answer. Its calls stand there in their order, and no marker but the zombie lock is touched. -/

namespace QuorumWarden

open QuorumWarden.Action

namespace Deed

def listing? : Deed → Option (String × List String)
  | .call (.databases host) (.ok names) => some (host, names)
  | _ => none

def redirect? : Deed → Option String
  | .call (.setUpstream address) _ => some address
  | _ => none

/-- Neither a listing of databases nor a call of the pooler. -/
def Aside (deed : Deed) : Prop := deed.listing? = none ∧ deed.redirect? = none

@[simp] theorem aside_prompt (asked : Prompt) (reply : asked.Reply) : (Deed.prompt asked reply).Aside := ⟨rfl, rfl⟩

theorem Outside.aside {deed : Deed} (outside : deed.Outside) : deed.Aside := by
  cases deed with
  | prompt asked reply => exact aside_prompt asked reply
  | call made reply => cases made <;> first | exact ⟨rfl, rfl⟩ | exact outside.elim

def Marks : Deed → Prop
  | .prompt (.writeMarker _ _) _ | .prompt (.removeMarker _) _ => True
  | _ => False

theorem Outside.unmarked {deed : Deed} (outside : deed.Outside) : ¬deed.Marks := by
  intro marks
  cases deed with
  | prompt asked reply => cases asked <;> first | exact marks | exact outside
  | call made reply => exact marks

/-- What neither writes nor removes a marker leaves all markers as they are. -/
theorem keeps_markers {event : Program.Event Request.Reply} {deed : Deed} {before after : Recorded Ground}
    (unmarked : ¬deed.Marks) (answered : Ground.openPorts.recorded.law event.request before event.reply after)
    (told : event.deed? = some deed) : after.state.markers = before.state.markers := by
  obtain ⟨request, reply⟩ := event
  cases request with
  | prompt asked =>
    cases told
    cases asked with
    | readMarker marker => exact congrArg Ground.markers answered.1.1
    | writeMarker marker text | removeMarker marker => exact absurd trivial unmarked
    | _ => exact congrArg Ground.markers answered.1
  | await wait =>
    cases wait with
    | call made => exact answered.1
    | _ => cases told
  | awaitOrStop wait =>
    cases wait with
    | call made =>
      cases reply with
      | none => cases told
      | some reply => exact answered.1
    | _ => cases told

end Deed

def listings (deeds : List Deed) : List (String × List String) := deeds.filterMap Deed.listing?

def redirects (deeds : List Deed) : List String := deeds.filterMap Deed.redirect?

theorem listings_append (first second : List Deed) : listings (first ++ second) = listings first ++ listings second :=
  List.filterMap_append

theorem redirects_append (first second : List Deed) :
    redirects (first ++ second) = redirects first ++ redirects second := List.filterMap_append

theorem listings_listing (host : String) (names : List String) (deeds : List Deed) :
    listings (.call (.databases host) (.ok names) :: deeds) = (host, names) :: listings deeds := rfl

theorem redirects_listing (host : String) (names : List String) (deeds : List Deed) :
    redirects (.call (.databases host) (.ok names) :: deeds) = redirects deeds := rfl

theorem listings_aside {deeds : List Deed} (aside : ∀ deed ∈ deeds, deed.Aside) : listings deeds = [] :=
  List.filterMap_eq_nil_iff.mpr fun deed member => (aside deed member).1

theorem redirects_aside {deeds : List Deed} (aside : ∀ deed ∈ deeds, deed.Aside) : redirects deeds = [] :=
  List.filterMap_eq_nil_iff.mpr fun deed member => (aside deed member).2

theorem listings_behind {front deeds : List Deed} (unlisted : listings front = []) :
    listings (front ++ deeds) = listings deeds := by
  rw [listings_append, unlisted, List.nil_append]

theorem redirects_behind {front deeds : List Deed} (aside : ∀ deed ∈ front, deed.Aside) :
    redirects (front ++ deeds) = redirects deeds := by
  rw [redirects_append, redirects_aside aside, List.nil_append]

theorem flagDeeds_aside (host : String) (enabled : Bool) (databases : List String) :
    ∀ deed ∈ flagDeeds host enabled databases, deed.Aside := by
  intro deed member
  obtain ⟨database, _, rfl⟩ := List.mem_map.mp member
  exact ⟨rfl, rfl⟩

theorem checkDeeds_aside (host : String) (databases : List String) :
    ∀ deed ∈ checkDeeds host databases, deed.Aside := by
  intro deed member
  obtain ⟨database, _, rfl⟩ := List.mem_map.mp member
  exact ⟨rfl, rfl⟩

/-- From one state to another by such deeds, with the markers as they were. -/
structure Passed (before after : Recorded Ground) (added : List Deed) : Prop where
  markers : after.state.markers = before.state.markers
  deeds : after.deeds = before.deeds ++ added

variable {host : String} {before between after : Recorded Ground} {first second : List Deed}

theorem Passed.refl (state : Recorded Ground) : Passed state state [] := ⟨rfl, by simp⟩

theorem Passed.trans (one : Passed before between first) (two : Passed between after second) :
    Passed before after (first ++ second) := by
  refine ⟨two.markers.trans one.markers, ?_⟩
  rw [two.deeds, one.deeds, List.append_assoc]

/-- Only what writes or removes a marker changes the markers. -/
theorem passed_of_transcript {α : Type} {procedure rest : Procedure α} {trace : List (Program.Event Request.Reply)}
    {deeds : List Deed} (steps : Program.Steps Ground.openPorts.recorded.law procedure before trace rest after)
    (told : Transcript trace deeds) (unmarked : ∀ deed ∈ deeds, ¬deed.Marks) : Passed before after deeds := by
  refine ⟨?_, Surroundings.steps_transcribed steps told⟩
  induction steps generalizing deeds with
  | refl => rfl
  | ask answered _ ih =>
    obtain ⟨deed, deeds, rfl, now, later⟩ := List.map_eq_cons_iff.mp told.symm
    obtain ⟨here, unmarked⟩ := List.forall_mem_cons.mp unmarked
    exact (ih later.symm unmarked).trans (Deed.keeps_markers here answered now.symm)

theorem passed_call {made : Call} {reply : made.Reply}
    (answered : Ground.openPorts.recorded.call made before reply after) : Passed before after [.call made reply] :=
  ⟨answered.1, answered.2⟩

theorem passed_stop {stop : Bool} (looked : Ground.openPorts.recorded.prompt .stopRequested before stop after) :
    Passed before after [.prompt .stopRequested stop] := ⟨congrArg Ground.markers looked.1, looked.2⟩

theorem passed_count {counter : Counter} {value : Unit}
    (returns : Returns Ground.openPorts.recorded.law (liftM (Procedure.count counter) : Action Unit) before value after) :
    Passed before after [.prompt (.count counter) ()] := by
  obtain ⟨trace, ran⟩ := returns_lift_iff.mp returns
  cases ran with
  | ask counted more =>
    obtain ⟨_, _, rfl⟩ := more.of_done
    exact ⟨congrArg Ground.markers counted.1, counted.2⟩

/-- The stop is looked at first and was not requested. -/
theorem passed_guarded {α : Type} {action : Action α} {value : α}
    (returns : Returns Ground.openPorts.recorded.law (guarded action) before value after) :
    ∃ between, Passed before between [.prompt .stopRequested false] ∧
      Returns Ground.openPorts.recorded.law action between value after := by
  obtain ⟨between, looked, onward⟩ := returns.of_guarded
  exact ⟨between, passed_stop looked, onward⟩

namespace Readonly

theorem passed_setLocal {enabled : Bool} {databases : List String}
    (returns : Returns Ground.openPorts.recorded.law (setLocal ⟨host⟩ enabled) before databases after) :
    ∃ names, databases = names.filter (fun name => !isSystemDatabase name) ∧
      Passed before after (.call (.databases host) (.ok names) :: flagDeeds host enabled databases) := by
  obtain ⟨trace, ran⟩ := returns
  obtain ⟨names, users, told⟩ := transcript_setLocal ran.freed
  exact ⟨names, users, passed_of_transcript ran told (by simp [flagDeeds, Deed.Marks])⟩

theorem passed_verify {databases : List String} {value : Unit}
    (returns : Returns Ground.openPorts.recorded.law (verify ⟨host⟩ databases) before value after) :
    Passed before after (checkDeeds host databases) := by
  obtain ⟨trace, ran⟩ := returns
  exact passed_of_transcript ran (transcript_verify ran.freed) (by simp [checkDeeds, Deed.Marks])

theorem passed_broadcast {enabled : Bool} {answer : Broadcast}
    (returns : Returns Ground.openPorts.recorded.law (broadcast host ⟨host⟩ enabled) before answer after) :
    ∃ added, Passed before after added ∧ ∀ deed ∈ added, deed.Aside := by
  obtain ⟨trace, ran⟩ := returns
  obtain ⟨deeds, told, outside⟩ := transcript_broadcast ran.freed
  exact ⟨deeds, passed_of_transcript ran told fun deed member => (outside deed member).unmarked,
    fun deed member => (outside deed member).aside⟩

end Readonly

namespace Fence

theorem passed_read {marker : Marker} {text : Option String}
    (returns : Returns Ground.openPorts.recorded.law (read marker) before text after) :
    text = before.state.markers.get marker ∧ Passed before after [.prompt (.readMarker marker) (.ok text)] := by
  obtain ⟨_, rfl, ⟨same, told⟩, deeds⟩ := returns_answer_iff.mp returns
  exact ⟨told text rfl, congrArg Ground.markers same, deeds⟩

theorem passed_holds {marker : Marker} {held : Bool}
    (returns : Returns Ground.openPorts.recorded.law (holds marker) before held after) :
    held = (before.state.markers.get marker).isSome ∧
      Passed before after [.prompt (.readMarker marker) (.ok (before.state.markers.get marker))] := by
  obtain ⟨text, between, reads, ended⟩ := returns_bind_iff.mp returns
  obtain ⟨rfl, rfl⟩ := returns_pure_iff.mp ended
  obtain ⟨rfl, passed⟩ := passed_read reads
  exact ⟨rfl, passed⟩

/-- Marker looks only, and the state they amount to. -/
theorem passed_state {state : FenceState} (returns : Returns Ground.openPorts.recorded.law Fence.state before state after) :
    (state.allowsWrites = true ↔ before.state.Unlocked) ∧
      ∃ added, Passed before after added ∧ ∀ deed ∈ added, deed.Aside := by
  obtain ⟨text, between, reads, onward⟩ := returns_bind_iff.mp returns
  obtain ⟨same, looked⟩ := passed_read reads
  cases text with
  | some text =>
    obtain ⟨rfl, rfl⟩ := returns_pure_iff.mp onward
    have locked : before.state.markers.zombieLock = some text := same.symm
    exact ⟨by simp [FenceState.allowsWrites, Ground.Unlocked, locked], _, looked, by simp⟩
  | none =>
    obtain ⟨held, _, reads, ended⟩ := returns_bind_iff.mp onward
    obtain ⟨rfl, rfl⟩ := returns_pure_iff.mp ended
    obtain ⟨rfl, looked'⟩ := passed_holds reads
    have unlocked : before.state.markers.zombieLock = none := same.symm
    refine ⟨?_, _, looked.trans looked', by simp⟩
    rw [looked.markers]
    cases readonly : before.state.markers.readonlyLock <;>
      simp [FenceState.allowsWrites, Ground.Unlocked, Markers.get, unlocked, readonly]

theorem written {marker : Marker} {text : String} {value : Unit}
    (returns : Returns Ground.openPorts.recorded.law (write marker text) before value after) :
    after.state.markers = before.state.markers.set marker (some text) ∧
      after.deeds = before.deeds ++ [.prompt (.writeMarker marker text) (.ok ())] := by
  obtain ⟨_, rfl, ⟨_, failed⟩ | same, deeds⟩ := returns_answer_iff.mp returns
  · exact absurd rfl failed
  · exact ⟨congrArg Ground.markers same, deeds⟩

theorem removed {marker : Marker} {value : Unit}
    (returns : Returns Ground.openPorts.recorded.law (remove marker) before value after) :
    after.state.markers = before.state.markers.set marker none ∧
      after.deeds = before.deeds ++ [.prompt (.removeMarker marker) (.ok ())] := by
  obtain ⟨_, rfl, ⟨_, failed⟩ | same, deeds⟩ := returns_answer_iff.mp returns
  · exact absurd rfl failed
  · exact ⟨congrArg Ground.markers same, deeds⟩

end Fence

/-- All user databases of the one listing were made read-only, and each was read back as such. -/
def Sealed (host : String) (deeds : List Deed) : Prop :=
  ∃ names, listings deeds = [(host, names)] ∧ ∀ database ∈ names, !Readonly.isSystemDatabase database →
    [.call (.setReadonly host database true) (.ok ()), .call (.readonly host database) (.ok true)].Sublist deeds

/-- All user databases of the one listing were made writable. -/
def Released (host : String) (deeds : List Deed) : Prop :=
  ∃ names, listings deeds = [(host, names)] ∧ ∀ database ∈ names, !Readonly.isSystemDatabase database →
    .call (.setReadonly host database false) (.ok ()) ∈ deeds

theorem Sealed.behind {front deeds : List Deed} (closed : Sealed host deeds) (unlisted : listings front = []) :
    Sealed host (front ++ deeds) := by
  obtain ⟨names, listed, checked⟩ := closed
  refine ⟨names, (listings_behind unlisted).trans listed, fun database member user => ?_⟩
  exact (checked database member user).trans (List.sublist_append_right front deeds)

theorem Released.behind {front deeds : List Deed} (released : Released host deeds) (unlisted : listings front = []) :
    Released host (front ++ deeds) := by
  obtain ⟨names, listed, freed⟩ := released
  refine ⟨names, (listings_behind unlisted).trans listed, fun database member user => ?_⟩
  exact List.mem_append_right front (freed database member user)

theorem sealed_of_parts {names databases : List String} {middle back : List Deed}
    (users : databases = names.filter fun name => !Readonly.isSystemDatabase name)
    (rest : ∀ deed ∈ flagDeeds host true databases ++ (middle ++ (checkDeeds host databases ++ back)), deed.Aside) :
    Sealed host (.call (.databases host) (.ok names) ::
      (flagDeeds host true databases ++ (middle ++ (checkDeeds host databases ++ back)))) := by
  refine ⟨names, by rw [listings_listing, listings_aside rest], fun database member user => ?_⟩
  have member : database ∈ databases := users ▸ List.mem_filter.mpr ⟨member, user⟩
  have set : .call (.setReadonly host database true) (.ok ()) ∈ flagDeeds host true databases :=
    List.mem_map_of_mem member
  have check : .call (.readonly host database) (.ok true) ∈ middle ++ (checkDeeds host databases ++ back) :=
    List.mem_append_right middle (List.mem_append_left back (List.mem_map_of_mem member))
  have ordered := (List.singleton_sublist.mpr set).append (List.singleton_sublist.mpr check)
  exact ordered.cons _

theorem released_of_parts {names databases : List String} {back : List Deed}
    (users : databases = names.filter fun name => !Readonly.isSystemDatabase name)
    (rest : ∀ deed ∈ flagDeeds host false databases ++ back, deed.Aside) :
    Released host (.call (.databases host) (.ok names) :: (flagDeeds host false databases ++ back)) := by
  refine ⟨names, by rw [listings_listing, listings_aside rest], fun database member user => ?_⟩
  have member : database ∈ databases := users ▸ List.mem_filter.mpr ⟨member, user⟩
  have set : .call (.setReadonly host database false) (.ok ()) ∈ flagDeeds host false databases :=
    List.mem_map_of_mem member
  exact List.mem_cons_of_mem _ (List.mem_append_left back set)

namespace Quarantine

/-- The pooler is called once, or there is nowhere to point it. -/
theorem passed_redirect {discovered : String} {found : Quarantine}
    (returns : Returns Ground.openPorts.recorded.law (redirect host discovered) before found after) :
    ∃ added, Passed before after added ∧ listings added = [] ∧
      redirects added = if discovered = "" ∨ discovered = host then [] else [discovered] := by
  unfold redirect at returns
  split at returns
  next nowhere =>
    obtain ⟨_, rfl⟩ := returns_pure_iff.mp returns
    have nowhere : discovered = "" ∨ discovered = host := by simpa using nowhere
    exact ⟨[], .refl _, rfl, by rw [if_pos nowhere]; rfl⟩
  next somewhere =>
    have somewhere : ¬(discovered = "" ∨ discovered = host) := by simpa using somewhere
    obtain ⟨result, _, redirects, onward⟩ := returns_bind_iff.mp returns
    obtain ⟨_, looked, answered⟩ := Returns.of_settled_call redirects
    have called := (passed_stop looked).trans (passed_call answered)
    cases result with
    | ok value =>
      obtain ⟨_, rfl⟩ := returns_pure_iff.mp onward
      exact ⟨_, called, rfl, by rw [if_neg somewhere]; rfl⟩
    | error failure =>
      obtain ⟨_, _, counts, ended⟩ := returns_bind_iff.mp onward
      obtain ⟨_, rfl⟩ := returns_pure_iff.mp ended
      exact ⟨_, called.trans (passed_count counts), rfl, by rw [if_neg somewhere]; rfl⟩

/-- A quarantine that returns has sealed the databases under the zombie lock. -/
theorem engaged_recorded {discovered : String} {found : Quarantine}
    (returns : Returns Ground.openPorts.recorded.law (engage host ⟨host⟩ discovered) before found after) :
    ∃ added, after.deeds = before.deeds ++ added ∧ Sealed host added ∧
      after.state.markers.zombieLock = some (Text.trim (Text.trim discovered)) ∧
      redirects added = if Text.trim discovered = "" ∨ Text.trim discovered = host then [] else [Text.trim discovered] := by
  obtain ⟨redirected, one, redirect, onward⟩ := returns_bind_iff.mp returns
  obtain ⟨_, two, takes, onward⟩ := returns_bind_iff.mp onward
  obtain ⟨databases, four, seals, onward⟩ := returns_bind_iff.mp onward
  obtain ⟨_, five, broadcasts, onward⟩ := returns_bind_iff.mp onward
  obtain ⟨_, seven, verifies, onward⟩ := returns_bind_iff.mp onward
  obtain ⟨_, eight, counts, ended⟩ := returns_bind_iff.mp onward
  obtain ⟨_, rfl⟩ := returns_pure_iff.mp ended
  obtain ⟨pointing, pointed, unlisted, redirected⟩ := passed_redirect redirect
  obtain ⟨locked, written⟩ := Fence.written (returns_inContext_iff.mp takes)
  obtain ⟨three, looked, sets⟩ := passed_guarded (returns_inContext_iff.mp seals)
  obtain ⟨names, users, flagged⟩ := Readonly.passed_setLocal sets
  obtain ⟨telling, told, aside⟩ := Readonly.passed_broadcast broadcasts
  obtain ⟨six, looked', checks⟩ := passed_guarded verifies
  have checked := Readonly.passed_verify checks
  have counted := passed_count counts
  have onward := looked.trans (flagged.trans (told.trans (looked'.trans (checked.trans counted))))
  have rest : ∀ deed ∈ flagDeeds host true databases ++ ((telling ++ [.prompt .stopRequested false]) ++
      (checkDeeds host databases ++ [.prompt (.count .quarantines) ()])), deed.Aside := by
    have asides := List.forall_mem_append.mpr ⟨aside, List.forall_mem_singleton.mpr (Deed.aside_prompt .stopRequested false)⟩
    have counts := List.forall_mem_append.mpr ⟨checkDeeds_aside host databases,
      List.forall_mem_singleton.mpr (Deed.aside_prompt (.count .quarantines) ())⟩
    exact List.forall_mem_append.mpr ⟨flagDeeds_aside host true databases, List.forall_mem_append.mpr ⟨asides, counts⟩⟩
  -- the pooler is called ahead of the lock, all else behind it
  refine ⟨(pointing ++ [.prompt (.writeMarker .zombieLock (Text.trim (Text.trim discovered))) (.ok ()),
      .prompt .stopRequested false]) ++ (.call (.databases host) (.ok names) :: (flagDeeds host true databases ++
    ((telling ++ [.prompt .stopRequested false]) ++ (checkDeeds host databases ++ [.prompt (.count .quarantines) ()])))),
    ?_, ?_, ?_, ?_⟩
  · rw [onward.deeds, written, pointed.deeds]
    simp
  · exact (sealed_of_parts users rest).behind ((listings_behind unlisted).trans rfl)
  · rw [onward.markers, locked]
    rfl
  · have locks : redirects [.prompt (.writeMarker .zombieLock (Text.trim (Text.trim discovered))) (.ok ()),
      .prompt .stopRequested false] = [] := rfl
    rw [redirects_append, redirects_append, redirected, locks, redirects_listing, redirects_aside rest,
      List.append_nil, List.append_nil]

/-- A lift that returns has dropped the zombie lock, and released the databases if no other lock is left. -/
theorem lifted_recorded {released : Bool}
    (returns : Returns Ground.openPorts.recorded.law (lift host ⟨host⟩) before released after) :
    ∃ added, after.deeds = before.deeds ++ added ∧ after.state.markers.zombieLock = none ∧
      (before.state.markers.readonlyLock = none → Released host added) := by
  obtain ⟨_, one, drops, onward⟩ := returns_bind_iff.mp returns
  obtain ⟨_, two, counts, onward⟩ := returns_bind_iff.mp onward
  obtain ⟨fence, three, looks, onward⟩ := returns_bind_iff.mp onward
  obtain ⟨dropped, removed⟩ := Fence.removed (returns_inContext_iff.mp drops)
  have counted := passed_count counts
  obtain ⟨allows, looking, looked, aside⟩ := Fence.passed_state looks
  have unlocked : two.state.Unlocked ↔ before.state.markers.readonlyLock = none := by
    simp [Ground.Unlocked, counted.markers, dropped, Markers.set]
  rw [unlocked] at allows
  split at onward
  next writes =>
    obtain ⟨databases, five, releases, onward⟩ := returns_bind_iff.mp onward
    obtain ⟨_, _, broadcasts, ended⟩ := returns_bind_iff.mp onward
    obtain ⟨_, rfl⟩ := returns_pure_iff.mp ended
    obtain ⟨four, looked', sets⟩ := passed_guarded (returns_inContext_iff.mp releases)
    obtain ⟨names, users, flagged⟩ := Readonly.passed_setLocal sets
    obtain ⟨telling, told, aside'⟩ := Readonly.passed_broadcast broadcasts
    have onward := counted.trans (looked.trans (looked'.trans (flagged.trans told)))
    have ahead : ∀ deed ∈ (.prompt (.removeMarker .zombieLock) (.ok ()) :: .prompt (.count .quarantineClears) () ::
        (looking ++ [.prompt .stopRequested false]) : List Deed), deed.Aside := by
      have looks := List.forall_mem_append.mpr ⟨aside, List.forall_mem_singleton.mpr (Deed.aside_prompt .stopRequested false)⟩
      exact List.forall_mem_cons.mpr ⟨⟨rfl, rfl⟩, List.forall_mem_cons.mpr ⟨⟨rfl, rfl⟩, looks⟩⟩
    have rest := List.forall_mem_append.mpr ⟨flagDeeds_aside host false databases, aside'⟩
    refine ⟨_, ?_, ?_, fun _ => (released_of_parts users rest).behind (listings_aside ahead)⟩
    · rw [onward.deeds, removed]
      simp
    · rw [onward.markers, dropped]
      rfl
  next held =>
    obtain ⟨_, rfl⟩ := returns_pure_iff.mp onward
    have onward := counted.trans looked
    refine ⟨_, by rw [onward.deeds, removed, List.append_assoc], ?_, fun unheld => absurd (allows.mpr unheld) held⟩
    rw [onward.markers, dropped]
    rfl

end Quarantine

end QuorumWarden
