import QuorumWarden.Proofs.NodeGround

/-! Runs that keep a record of all prompts and calls, also of exchanges side by side. The record
only grows, any run can be recorded, and whatever a strand reports is backed by calls of the record. -/

namespace QuorumWarden

inductive Deed where
  | prompt (asked : Prompt) (reply : asked.Reply)
  | call (made : Call) (reply : made.Reply)

structure Recorded (σ : Type) where
  state : σ
  deeds : List Deed := []

def Recorded.note {σ : Type} (before : Recorded σ) (deed : Deed) : Recorded σ := ⟨before.state, before.deeds ++ [deed]⟩

namespace Surroundings

variable {σ : Type} {surroundings wider : Surroundings σ}

def recorded (surroundings : Surroundings σ) : Surroundings (Recorded σ) where
  call made before reply after :=
    surroundings.call made before.state reply after.state ∧ after.deeds = before.deeds ++ [.call made reply]
  prompt asked before reply after :=
    surroundings.prompt asked before.state reply after.state ∧ after.deeds = before.deeds ++ [.prompt asked reply]

theorem gathers_grow {heard heard' : List (Outcome Report)} {strands rest : List Strand} {before after : Recorded σ}
    (gathers : Gathers surroundings.recorded.call heard strands before heard' rest after) :
    before.deeds <+: after.deeds := by
  induction gathers with
  | refl | fail => exact List.prefix_rfl
  | report _ ih => exact ih
  | ask answered _ ih =>
    rw [answered.2] at ih
    exact (List.prefix_append _ _).trans ih

theorem part_grows {wait : Wait} {before after : Recorded σ} (left : surroundings.recorded.part wait before after) :
    before.deeds <+: after.deeds := by
  cases wait with
  | call made =>
    rcases left with rfl | ⟨reply, _, deeds⟩
    · exact List.prefix_rfl
    · exact deeds ▸ List.prefix_append _ _
  | gather heard strands =>
    obtain ⟨heard', rest, gathers⟩ := left
    exact gathers_grow gathers
  | _ =>
    cases left
    exact List.prefix_rfl

theorem part_of_wait {wait : Wait} {before after : σ} {reply : wait.Reply}
    (answered : surroundings.wait wait before reply after) : surroundings.part wait before after := by
  cases wait with
  | call made => exact Or.inr ⟨reply, answered⟩
  | gather heard strands => exact ⟨reply, [], answered⟩
  | _ => exact answered

theorem law_grows {request : Request} {reply : request.Reply} {before after : Recorded σ}
    (answered : surroundings.recorded.law request before reply after) : before.deeds <+: after.deeds := by
  cases request with
  | prompt asked => exact answered.2 ▸ List.prefix_append _ _
  | await wait => exact part_grows (part_of_wait answered)
  | awaitOrStop wait =>
    cases reply with
    | none => exact part_grows answered
    | some reply => exact part_grows (part_of_wait answered)

theorem steps_grow {α : Type} {procedure rest : Procedure α} {before after : Recorded σ}
    {trace : List (Program.Event Request.Reply)}
    (steps : Program.Steps surroundings.recorded.law procedure before trace rest after) :
    before.deeds <+: after.deeds := by
  induction steps with
  | refl => exact List.prefix_rfl
  | ask answered _ ih => exact (law_grows answered).trans ih

/-- Some surroundings may do all that others do. -/
structure Within (surroundings wider : Surroundings σ) : Prop where
  call : ∀ made before reply after, surroundings.call made before reply after → wider.call made before reply after
  prompt : ∀ asked before reply after, surroundings.prompt asked before reply after → wider.prompt asked before reply after

variable (within : Within surroundings wider) (deeds : List Deed)
include within

theorem gathers_recorded {heard heard' : List (Outcome Report)} {strands rest : List Strand} {before after : σ}
    (gathers : Gathers surroundings.call heard strands before heard' rest after) :
    ∃ more, Gathers wider.recorded.call heard strands ⟨before, deeds⟩ heard' rest ⟨after, more⟩ := by
  induction gathers generalizing deeds with
  | refl => exact ⟨deeds, .refl⟩
  | fail => exact ⟨deeds, .fail⟩
  | report _ ih =>
    obtain ⟨more, onward⟩ := ih deeds
    exact ⟨more, .report onward⟩
  | ask answered _ ih =>
    obtain ⟨more, onward⟩ := ih _
    exact ⟨more, .ask ⟨within.call _ _ _ _ answered, rfl⟩ onward⟩

theorem part_recorded {wait : Wait} {before after : σ} (left : surroundings.part wait before after) :
    ∃ more, wider.recorded.part wait ⟨before, deeds⟩ ⟨after, more⟩ := by
  cases wait with
  | call made =>
    rcases left with rfl | ⟨reply, answered⟩
    · exact ⟨deeds, Or.inl rfl⟩
    · exact ⟨_, Or.inr ⟨reply, within.call _ _ _ _ answered, rfl⟩⟩
  | gather heard strands =>
    obtain ⟨heard', rest, gathers⟩ := left
    obtain ⟨more, recorded⟩ := gathers_recorded within deeds gathers
    exact ⟨more, heard', rest, recorded⟩
  | _ =>
    cases left
    exact ⟨deeds, rfl⟩

theorem wait_recorded {wait : Wait} {reply : wait.Reply} {before after : σ}
    (answered : surroundings.wait wait before reply after) :
    ∃ more, wider.recorded.wait wait ⟨before, deeds⟩ reply ⟨after, more⟩ := by
  cases wait with
  | call made => exact ⟨_, within.call _ _ _ _ answered, rfl⟩
  | gather heard strands => exact gathers_recorded within deeds answered
  | _ =>
    cases answered
    exact ⟨deeds, rfl⟩

theorem law_recorded {request : Request} {reply : request.Reply} {before after : σ}
    (answered : surroundings.law request before reply after) :
    ∃ more, wider.recorded.law request ⟨before, deeds⟩ reply ⟨after, more⟩ := by
  cases request with
  | prompt asked => exact ⟨_, within.prompt _ _ _ _ answered, rfl⟩
  | await wait => exact wait_recorded within deeds answered
  | awaitOrStop wait =>
    cases reply with
    | none => exact part_recorded within deeds answered
    | some reply => exact wait_recorded within deeds answered

/-- Nothing that may happen is ruled out by keeping a record of it. -/
theorem steps_recorded {α : Type} {procedure rest : Procedure α} {before after : σ}
    {trace : List (Program.Event Request.Reply)}
    (steps : Program.Steps surroundings.law procedure before trace rest after) :
    ∃ more, Program.Steps wider.recorded.law procedure ⟨before, deeds⟩ trace rest ⟨after, more⟩ := by
  induction steps generalizing deeds with
  | refl => exact ⟨deeds, .refl⟩
  | ask answered _ ih =>
    obtain ⟨noted, answered⟩ := law_recorded within deeds answered
    obtain ⟨more, onward⟩ := ih noted
    exact ⟨more, .ask answered onward⟩

end Surroundings

/-- Ports that may answer anything and set any flag. Only the node itself uses its markers. -/
def Ground.openPorts : Surroundings Ground := ⟨fun _ before _ after => after.markers = before.markers, Ground.prompt⟩

theorem Ground.openPorts_call (made : Call) (before : Recorded Ground) (reply : made.Reply) :
    Ground.openPorts.recorded.call made before reply (before.note (.call made reply)) := ⟨rfl, rfl⟩

theorem Server.within_openPorts (server : Server) : server.surroundings.Within Ground.openPorts := by
  refine ⟨?_, fun _ _ _ _ answered => answered⟩
  intro made before reply after answered
  change after.markers = before.markers
  cases made with
  | databases host | readonly host database => exact congrArg Ground.markers answered.1
  | setReadonly host database enabled =>
    rcases answered with ⟨same, _⟩ | ⟨_, same⟩
    · exact congrArg Ground.markers same
    · rw [same]
      rfl
  | _ => exact congrArg Ground.markers answered

/-- An exchange came from its start to where it is by calls of the record. -/
def Exchanged (deeds : List Deed) (start rest : Exchange (Outcome Report)) : Prop :=
  ∃ trace, Program.Steps (fun _ _ _ _ => True) start () trace rest () ∧
    ∀ event ∈ trace, Deed.call event.request event.reply ∈ deeds

namespace Exchanged

variable {deeds more : List Deed} {start : Exchange (Outcome Report)}

theorem refl : Exchanged deeds start start := ⟨[], .refl, by simp⟩

theorem mono {rest : Exchange (Outcome Report)} (exchanged : Exchanged deeds start rest) (grown : deeds <+: more) :
    Exchanged more start rest := by
  obtain ⟨trace, steps, noted⟩ := exchanged
  exact ⟨trace, steps, fun event member => grown.subset (noted event member)⟩

theorem ask {made : Call} {next : made.Reply → Exchange (Outcome Report)} {reply : made.Reply}
    (exchanged : Exchanged deeds start (.ask made next)) :
    Exchanged (deeds ++ [.call made reply]) start (next reply) := by
  obtain ⟨trace, steps, noted⟩ := exchanged
  refine ⟨trace ++ [⟨made, reply⟩], steps.trans (.ask trivial .refl), ?_⟩
  intro event member
  rcases List.mem_append.mp member with earlier | last
  · exact List.mem_append_left _ (noted event earlier)
  · cases List.mem_singleton.mp last
    simp

end Exchanged

/-- Reports come in any order, one from each strand, unless a strand fails. -/
theorem Gathers.told {σ ι : Type} {surroundings : Surroundings σ} {start : ι → Exchange (Outcome Report)}
    {heard heard' : List (Outcome Report)} {strands rest : List Strand} {before after : Recorded σ}
    (gathers : Gathers surroundings.recorded.call heard strands before heard' rest after) (ended : rest = [])
    (fine : ∀ failure, .error failure ∉ heard') {owned : List (ι × Strand)} (own : owned.map Prod.snd = strands)
    (exchanged : ∀ pair ∈ owned, Exchanged before.deeds (start pair.1) pair.2.rest) :
    ∃ told : List (ι × Report), heard' = heard ++ told.map (fun pair => .ok pair.2) ∧
      (told.map Prod.fst).Perm (owned.map Prod.fst) ∧
      ∀ pair ∈ told, Exchanged after.deeds (start pair.1) (.done (.ok pair.2)) := by
  -- strands change places as they go on, so each is kept with the index it was started for
  induction gathers generalizing owned with
  | refl =>
    subst ended
    cases List.map_eq_nil_iff.mp own
    exact ⟨[], by simp⟩
  | @ask heard front back wakesAt made next before reply between _ _ _ answered _ ih =>
    obtain ⟨front, others, rfl, rfl, behind⟩ := List.map_eq_append_iff.mp own
    obtain ⟨⟨index, strand⟩, back, rfl, same, rfl⟩ := List.map_eq_cons_iff.mp behind
    cases same
    have grown : before.deeds <+: between.deeds := answered.2 ▸ List.prefix_append _ _
    have moved : (front ++ (index, (⟨wakesAt, next reply⟩ : Strand)) :: back).map Prod.snd =
        front.map Prod.snd ++ ⟨wakesAt, next reply⟩ :: back.map Prod.snd := by simp
    have onward : ∀ pair ∈ front ++ (index, (⟨wakesAt, next reply⟩ : Strand)) :: back,
        Exchanged between.deeds (start pair.1) pair.2.rest := by
      intro pair member
      rcases List.mem_append.mp member with ahead | behind
      · exact (exchanged pair (List.mem_append_left _ ahead)).mono grown
      rcases List.mem_cons.mp behind with rfl | behind
      · have begun := exchanged (index, ⟨wakesAt, .ask made next⟩) (by simp)
        rw [answered.2]
        exact begun.ask
      · exact (exchanged pair (by simp [behind])).mono grown
    obtain ⟨told, heard, order, backed⟩ := ih ended fine moved onward
    exact ⟨told, heard, by simpa using order, backed⟩
  | @report heard front back wakesAt report before _ _ _ more ih =>
    obtain ⟨front, others, rfl, rfl, behind⟩ := List.map_eq_append_iff.mp own
    obtain ⟨⟨index, strand⟩, back, rfl, same, rfl⟩ := List.map_eq_cons_iff.mp behind
    cases same
    have left : ∀ pair ∈ front ++ back, Exchanged before.deeds (start pair.1) pair.2.rest := by
      intro pair member
      rcases List.mem_append.mp member with ahead | behind
      · exact exchanged pair (List.mem_append_left _ ahead)
      · exact exchanged pair (by simp [behind])
    obtain ⟨told, heard, order, backed⟩ := ih ended fine (List.map_append ..) left
    refine ⟨(index, report) :: told, by simp [heard], ?_, ?_⟩
    · have order := order.cons index
      simp only [List.map_append, List.map_cons] at order ⊢
      exact order.trans List.perm_middle.symm
    · refine List.forall_mem_cons.mpr ⟨?_, backed⟩
      have done := exchanged (index, ⟨wakesAt, .done (.ok report)⟩) (by simp)
      exact done.mono (Surroundings.gathers_grow more)
  | @fail heard front back wakesAt failure state => exact absurd (by simp) (fine failure)

end QuorumWarden
