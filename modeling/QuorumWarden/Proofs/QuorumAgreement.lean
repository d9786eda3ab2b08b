import Mathlib.Data.Finset.Card
import Mathlib.Data.Finset.Dedup
import QuorumWarden.Proofs.QuorumVerdict

/-! Members that ask around reach compatible verdicts. A verdict for a host is carried by a
majority of all registered members, and any two majorities share a member, whose single view
both verdicts have to respect. -/

namespace QuorumWarden

/-- How one registered member asks all the others: in some order, reaching some of them. -/
structure Poll (members : Finset String) (host : String) where
  asked : List String
  reached : Finset String
  registered : host ∈ members
  once : asked.Nodup
  everyone : asked.toFinset = members.erase host

namespace Poll

variable {members : Finset String} {host : String}

/-- A member tells the same to whoever reaches it. -/
def hears (poll : Poll members host) (view : String → Option String) (member : String) : Report :=
  if member ∈ poll.reached then .reachable (view member) else .unreachable

def sample (poll : Poll members host) (view : String → Option String) : Sample :=
  Sample.ofReports host (poll.asked.map (poll.hears view))

theorem length_asked (poll : Poll members host) : 1 + poll.asked.length = members.card := by
  rw [← List.toFinset_card_of_nodup poll.once, poll.everyone, Nat.add_comm]
  exact Finset.card_erase_add_one poll.registered

theorem members_sample (poll : Poll members host) (view : String → Option String) :
    (poll.sample view).members = members.card := by
  rw [sample, (Sample.counts_ofReports _ _).members, List.length_map, poll.length_asked]

private theorem majority_asked (poll : Poll members host) (view : String → Option String) :
    Sample.majority (poll.asked.map (poll.hears view)) = members.card / 2 + 1 := by
  rw [Sample.majority, List.length_map, poll.length_asked]

private theorem countP_heard (poll : Poll members host) (view : String → Option String) (kind : Report → Bool) :
    (poll.asked.map (poll.hears view)).countP kind =
      ((members.erase host).filter fun member => kind (poll.hears view member)).card := by
  rw [List.countP_map, List.countP_eq_length_filter, ← List.toFinset_card_of_nodup (poll.once.filter _),
    List.toFinset_filter, poll.everyone]
  rfl

def followers (members : Finset String) (view : String → Option String) (host : String) : Finset String :=
  members.filter fun member => view member = none ∨ view member = some host

def supporters (members : Finset String) (view : String → Option String) (host : String) : Finset String :=
  members.filter fun member => view member = some host

theorem followers_of_confirmed (poll : Poll members host) {view : String → Option String}
    (own : view host = some host) (confirmed : (poll.sample view).diagnose.verdict = .confirmed) :
    members.card / 2 + 1 ≤ (followers members view host).card := by
  have diagnosis : (poll.sample view).diagnose = ⟨.confirmed, (poll.sample view).diagnose.primary⟩ := by
    rw [← confirmed]
  obtain ⟨_, unanimous, enough⟩ := Sample.diagnose_eq_confirmed_iff.mp diagnosis
  rw [majority_asked, countP_heard] at enough
  rw [countP_heard, Finset.card_eq_zero, Finset.filter_eq_empty_iff] at unanimous
  refine enough.trans ?_
  rw [Nat.add_comm, ← Finset.card_insert_of_notMem (a := host) (by simp)]
  refine Finset.card_le_card fun member inside => ?_
  rcases Finset.mem_insert.mp inside with rfl | inside
  · exact Finset.mem_filter.mpr ⟨poll.registered, Or.inr own⟩
  · obtain ⟨other, reachable⟩ := Finset.mem_filter.mp inside
    have agrees := unanimous other
    refine Finset.mem_filter.mpr ⟨Finset.mem_of_mem_erase other, ?_⟩
    by_cases heard : member ∈ poll.reached
    · cases named : view member with
      | none => exact Or.inl rfl
      | some primary => simpa [hears, heard, named, Report.contradicts] using agrees
    · simp [hears, heard, Report.isReachable] at reachable

theorem supporters_of_discovered (poll : Poll members host) {view : String → Option String} {other : String}
    (discovered : (poll.sample view).diagnose = ⟨.discoveredOther, other⟩) :
    members.card / 2 + 1 ≤ (supporters members view other).card := by
  obtain ⟨_, enough⟩ := Sample.diagnose_eq_discovered_iff.mp discovered
  rw [majority_asked, List.count, countP_heard] at enough
  refine enough.trans (Finset.card_le_card fun member inside => ?_)
  obtain ⟨registered, named⟩ := Finset.mem_filter.mp inside
  refine Finset.mem_filter.mpr ⟨Finset.mem_of_mem_erase registered, ?_⟩
  by_cases heard : member ∈ poll.reached
  · simpa [hears, heard] using named
  · simp [hears, heard] at named

theorem majorities_meet {first second : Finset String} (inside : first ⊆ members) (within : second ⊆ members)
    (one : members.card / 2 + 1 ≤ first.card) (two : members.card / 2 + 1 ≤ second.card) :
    ∃ member ∈ members, member ∈ first ∧ member ∈ second := by
  obtain ⟨member, common⟩ := Finset.inter_nonempty_of_card_lt_card_add_card inside within (by omega)
  obtain ⟨left, right⟩ := Finset.mem_inter.mp common
  exact ⟨member, inside left, left, right⟩

/-- Two hosts that both take themselves for primary: at most one is confirmed when everybody
names somebody, and whoever is discovered is the confirmed one, or the one all discover. -/
theorem verdicts_agree {view : String → Option String} {first second : String} (different : first ≠ second)
    (ownFirst : view first = some first) (ownSecond : view second = some second)
    (one : Poll members first) (two : Poll members second) :
    (one.sample view).members = members.card ∧ (two.sample view).members = members.card ∧
    ((∀ member ∈ members, view member ≠ none) →
      ¬((one.sample view).diagnose.verdict = .confirmed ∧ (two.sample view).diagnose.verdict = .confirmed)) ∧
    (∀ other, (one.sample view).diagnose.verdict = .confirmed →
      (two.sample view).diagnose = ⟨.discoveredOther, other⟩ → other = first) ∧
    (∀ other another, (one.sample view).diagnose = ⟨.discoveredOther, other⟩ →
      (two.sample view).diagnose = ⟨.discoveredOther, another⟩ → other = another) := by
  have followersInside := fun host => Finset.filter_subset (fun m => view m = none ∨ view m = some host) members
  have supportersInside := fun host => Finset.filter_subset (fun m => view m = some host) members
  refine ⟨one.members_sample view, two.members_sample view, ?_, ?_, ?_⟩
  · rintro everybody ⟨confirmed, also⟩
    obtain ⟨member, registered, left, right⟩ := majorities_meet (followersInside first) (followersInside second)
      (one.followers_of_confirmed ownFirst confirmed) (two.followers_of_confirmed ownSecond also)
    have named := everybody member registered
    have left := (Finset.mem_filter.mp left).2.resolve_left named
    have right := (Finset.mem_filter.mp right).2.resolve_left named
    exact different (Option.some.inj (left.symm.trans right))
  · intro other confirmed discovered
    obtain ⟨member, _, left, right⟩ := majorities_meet (followersInside first) (supportersInside other)
      (one.followers_of_confirmed ownFirst confirmed) (two.supporters_of_discovered discovered)
    have right := (Finset.mem_filter.mp right).2
    rcases (Finset.mem_filter.mp left).2 with silent | named
    · rw [silent] at right
      cases right
    · exact Option.some.inj (right.symm.trans named)
  · intro other another discovered also
    obtain ⟨member, _, left, right⟩ := majorities_meet (supportersInside other) (supportersInside another)
      (one.supporters_of_discovered discovered) (two.supporters_of_discovered also)
    exact Option.some.inj ((Finset.mem_filter.mp left).2.symm.trans (Finset.mem_filter.mp right).2)

/-- Of five members two claim the primary's place. The second one finds that a majority names
the first, which the others it reaches have confirmed. -/
private def rivalView : String → Option String
  | "b" => some "b"
  | "e" => none
  | _ => some "a"

private def confidentPoll : Poll {"a", "b", "c", "d", "e"} "a" :=
  ⟨["e", "d", "c", "b"], {"c", "d"}, by decide, by decide, by decide⟩

private def beatenPoll : Poll {"a", "b", "c", "d", "e"} "b" :=
  ⟨["a", "c", "d", "e"], {"a", "c", "d"}, by decide, by decide, by decide⟩

theorem rival_discovers_confirmed :
    (confidentPoll.sample rivalView).diagnose.verdict = .confirmed ∧
      (beatenPoll.sample rivalView).diagnose = ⟨.discoveredOther, "a"⟩ ∧
      ∀ other, (beatenPoll.sample rivalView).diagnose = ⟨.discoveredOther, other⟩ → other = "a" :=
  have agree := verdicts_agree (by decide) (by rfl) (by rfl) confidentPoll beatenPoll
  ⟨by decide, by decide, fun other => agree.2.2.2.1 other (by decide)⟩

end Poll

end QuorumWarden
