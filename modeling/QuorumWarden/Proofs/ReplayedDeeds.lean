import QuorumWarden.Proofs.Interleavings

/-! What deeds leave on the ground. Where every change succeeded, the ground is what the deeds make of
the first one, even if databases come and go meanwhile. -/

namespace QuorumWarden

/-- The same server while databases are made and dropped. -/
def Server.shifting (server : Server) : Law Request Request.Reply Ground := fun request before reply after =>
  ∃ databases, { server with databases }.law request before reply after

theorem Server.law_shifting (server : Server) (request : Request) (before : Ground) (reply : request.Reply)
    (after : Ground) (answered : server.law request before reply after) : server.shifting request before reply after :=
  ⟨server.databases, answered⟩

namespace Deed

def effect : Deed → Ground → Ground
  | .call (.setReadonly _ database enabled) _, ground => ground.setReadonly database enabled
  | .prompt (.writeMarker marker text) _, ground => ground.setMarker marker (some text)
  | .prompt (.removeMarker marker) _, ground => ground.setMarker marker none
  | _, ground => ground

/-- A change of the ground on this host that was reported done. -/
def Settled (host : String) : Deed → Prop
  | .call (.setReadonly onHost _ _) reply => onHost = host ∧ reply = .ok ()
  | .prompt (.writeMarker _ _) reply | .prompt (.removeMarker _) reply => reply = .ok ()
  | _ => True

/-- What was read stood on the ground. -/
def Reads (host : String) (ground : Ground) : Deed → Prop
  | .call (.readonly onHost database) (.ok flag) => onHost = host → flag = ground.readonly database
  | .prompt (.readMarker marker) (.ok text) => text = ground.markers.get marker
  | _ => True

/-- The way a database's flag is set, if it is. -/
def flag? (database : String) : Deed → Option Bool
  | .call (.setReadonly _ other enabled) _ => if other = database then some enabled else none
  | _ => none

def Locks : Deed → Prop
  | .prompt (.writeMarker .readonlyLock _) _ => True
  | _ => False

theorem effect_readonly (deed : Deed) (ground : Ground) (database : String) :
    (deed.effect ground).readonly database = (deed.flag? database).getD (ground.readonly database) := by
  cases deed with
  | prompt asked reply => cases asked <;> rfl
  | call made reply =>
    cases made with
    | setReadonly host other enabled =>
      by_cases same : other = database
      · simp [effect, flag?, Ground.setReadonly, same]
      · simp [effect, flag?, Ground.setReadonly, same, Ne.symm same]
    | _ => rfl

theorem effect_lock {deed : Deed} (spares : ¬deed.Locks) {ground : Ground} (unheld : ground.markers.readonlyLock = none) :
    (deed.effect ground).markers.readonlyLock = none := by
  cases deed with
  | prompt asked reply =>
    cases asked with
    | writeMarker marker text =>
      cases marker with
      | readonlyLock => exact absurd trivial spares
      | zombieLock | registration => exact unheld
    | removeMarker marker =>
      cases marker with
      | readonlyLock => rfl
      | zombieLock | registration => exact unheld
    | _ => exact unheld
  | call made reply => cases made <;> exact unheld

/-- A settled change takes effect, and what is read is there. -/
theorem effect_of_law {server : Server} (heeds : server.heeds = true) {event : Program.Event Request.Reply} {deed : Deed}
    {before after : Ground} (answered : server.shifting event.request before event.reply after)
    (told : event.deed? = some deed) (settled : deed.Settled server.host) :
    after = deed.effect before ∧ deed.Reads server.host before := by
  obtain ⟨databases, answered⟩ := answered
  have called : ∀ made reply, ({ server with databases } : Server).call made before reply after →
      (Deed.call made reply).Settled server.host →
      after = (Deed.call made reply).effect before ∧ (Deed.call made reply).Reads server.host before := by
    intro made reply answered settled
    cases made with
    | databases host => exact ⟨answered.1, trivial⟩
    | readonly host database =>
      refine ⟨answered.1, ?_⟩
      cases reply with
      | error failure => trivial
      | ok flag => exact fun here => answered.2 here flag rfl
    | setReadonly host database enabled =>
      obtain ⟨here, succeeded⟩ := settled
      rcases answered with ⟨_, refused⟩ | ⟨_, set⟩
      · exact absurd succeeded (refused here heeds)
      · exact ⟨set, trivial⟩
    | _ => exact ⟨answered, trivial⟩
  obtain ⟨request, reply⟩ := event
  cases request with
  | prompt asked =>
    cases told
    cases asked with
    | readMarker marker =>
      refine ⟨answered.1, ?_⟩
      cases reply with
      | error failure => trivial
      | ok text => exact answered.2 text rfl
    | writeMarker marker text | removeMarker marker =>
      rcases answered with ⟨_, refused⟩ | changed
      · exact absurd settled refused
      · exact ⟨changed, trivial⟩
    | _ => exact ⟨answered, trivial⟩
  | await wait =>
    cases wait with
    | call made =>
      cases told
      exact called made reply answered settled
    | _ => cases told
  | awaitOrStop wait =>
    cases wait with
    | call made =>
      cases reply with
      | none => cases told
      | some reply =>
        cases told
        exact called made reply answered settled
    | _ => cases told

end Deed

def replay (deeds : List Deed) (ground : Ground) : Ground := deeds.foldl (fun ground deed => deed.effect ground) ground

theorem replay_append (first second : List Deed) (ground : Ground) :
    replay (first ++ second) ground = replay second (replay first ground) := List.foldl_append

/-- A database that is never closed on the way is read-only in the end if it was and was never let in. -/
theorem replay_readonly_iff {database : String} {deeds : List Deed}
    (unclosed : ∀ deed ∈ deeds, deed.flag? database ≠ some true) (ground : Ground) :
    (replay deeds ground).readonly database = true ↔
      ground.readonly database = true ∧ ∀ deed ∈ deeds, deed.flag? database ≠ some false := by
  induction deeds generalizing ground with
  | nil => simp [replay]
  | cons deed deeds ih =>
    obtain ⟨now, later⟩ := List.forall_mem_cons.mp unclosed
    have onward : replay (deed :: deeds) ground = replay deeds (deed.effect ground) := rfl
    rw [onward, ih later, deed.effect_readonly, List.forall_mem_cons, ← and_assoc]
    cases flag : deed.flag? database with
    | none => simp
    | some enabled =>
      cases enabled with
      | true => exact absurd flag now
      | false => simp

theorem replay_lock {deeds : List Deed} (spared : ∀ deed ∈ deeds, ¬deed.Locks) {ground : Ground}
    (unheld : ground.markers.readonlyLock = none) : (replay deeds ground).markers.readonlyLock = none := by
  induction deeds generalizing ground with
  | nil => exact unheld
  | cons deed deeds ih =>
    obtain ⟨now, later⟩ := List.forall_mem_cons.mp spared
    exact ih later (Deed.effect_lock now unheld)

/-- The ground follows from the deeds, and at every deed it is what was read there. -/
theorem Law.Evolves.replayed {server : Server} (heeds : server.heeds = true) {trace : List (Program.Event Request.Reply)}
    {deeds : List Deed} {before after : Ground} (evolves : server.shifting.Evolves before trace after)
    (told : Transcript trace deeds) (settled : ∀ deed ∈ deeds, deed.Settled server.host) :
    after = replay deeds before ∧ ∀ ahead deed behind, deeds = ahead ++ deed :: behind →
      deed.Reads server.host (replay ahead before) := by
  induction evolves generalizing deeds with
  | refl =>
    cases List.map_eq_nil_iff.mp told.symm
    exact ⟨rfl, by simp⟩
  | step answered _ ih =>
    obtain ⟨deed, deeds, rfl, now, later⟩ := List.map_eq_cons_iff.mp told.symm
    obtain ⟨here, settled⟩ := List.forall_mem_cons.mp settled
    obtain ⟨rfl, reads⟩ := Deed.effect_of_law heeds answered now.symm here
    obtain ⟨ended, rest⟩ := ih later.symm settled
    refine ⟨ended, ?_⟩
    intro ahead other behind split
    cases ahead with
    | nil =>
      cases split
      exact reads
    | cons first ahead =>
      cases split
      exact rest ahead other behind rfl

end QuorumWarden
