import QuorumWarden.Proofs.FreeRuns

/-! Two operations on one node, one request of either at a time. Each of them runs as it would alone,
and the ground is where the deeds of both have taken it. -/

namespace QuorumWarden

inductive Side where
  | engaging
  | releasing
  deriving DecidableEq

inductive Interleaves {σ α β : Type} (law : Law Request Request.Reply σ) : Procedure α → Procedure β → σ →
    List (Side × Program.Event Request.Reply) → Procedure α → Procedure β → σ → Prop where
  | refl {one other state} : Interleaves law one other state [] one other state
  | engaging {request next other before reply between history one' other' after}
      (answered : law request before reply between)
      (more : Interleaves law (next reply) other between history one' other' after) :
      Interleaves law (.ask request next) other before ((.engaging, ⟨request, reply⟩) :: history) one' other' after
  | releasing {one request next before reply between history one' other' after}
      (answered : law request before reply between)
      (more : Interleaves law one (next reply) between history one' other' after) :
      Interleaves law one (.ask request next) before ((.releasing, ⟨request, reply⟩) :: history) one' other' after

/-- Where such events take a state, whoever asked for them. -/
inductive Law.Evolves {Request : Type} {Reply : Request → Type} {σ : Type} (law : Law Request Reply σ) :
    σ → List (Program.Event Reply) → σ → Prop where
  | refl {state} : Evolves law state [] state
  | step {request before reply between trace after} (answered : law request before reply between)
      (more : Evolves law between trace after) : Evolves law before (⟨request, reply⟩ :: trace) after

/-- What one side has done. -/
def Side.own {ι : Type} (side : Side) (entries : List (Side × ι)) : List ι :=
  (entries.filter fun entry => entry.1 = side).map Prod.snd

namespace Side

variable {ι : Type} {side : Side} {entries : List (Side × ι)} {first second entry : ι}

theorem mem_own : entry ∈ side.own entries ↔ (side, entry) ∈ entries := by
  simp [own]

theorem own_ordered (ordered : [(side, first), (side, second)].Sublist entries) : [first, second].Sublist (side.own entries) := by
  have kept := (ordered.filter fun entry => entry.1 = side).map Prod.snd
  simpa [own] using kept

end Side

namespace Interleaves

variable {σ α β : Type} {law : Law Request Request.Reply σ} {one one' : Procedure α} {other other' : Procedure β}
  {before between after : σ} {history : List (Side × Program.Event Request.Reply)}

theorem engaged (run : Interleaves law one other before history one' other' after) :
    Program.Steps Law.free one () (Side.engaging.own history) one' () := by
  induction run with
  | refl => exact .refl
  | engaging _ _ ih => exact .ask trivial ih
  | releasing _ _ ih => exact ih

theorem released (run : Interleaves law one other before history one' other' after) :
    Program.Steps Law.free other () (Side.releasing.own history) other' () := by
  induction run with
  | refl => exact .refl
  | engaging _ _ ih => exact ih
  | releasing _ _ ih => exact .ask trivial ih

theorem evolves (run : Interleaves law one other before history one' other' after) :
    law.Evolves before (history.map Prod.snd) after := by
  induction run with
  | refl => exact .refl
  | engaging answered _ ih => exact .step answered ih
  | releasing answered _ ih => exact .step answered ih

variable {trace : List (Program.Event Request.Reply)}

theorem engaging_first (steps : Program.Steps law one before trace one' between) {last : Procedure α}
    (run : Interleaves law one' other between history last other' after) :
    Interleaves law one other before (trace.map (Prod.mk .engaging) ++ history) last other' after := by
  induction steps with
  | refl => exact run
  | ask answered _ ih => exact .engaging answered (ih run)

theorem releasing_first (steps : Program.Steps law other before trace other' between) {last : Procedure β}
    (run : Interleaves law one other' between history one' last after) :
    Interleaves law one other before (trace.map (Prod.mk .releasing) ++ history) one' last after := by
  induction steps with
  | refl => exact run
  | ask answered _ ih => exact .releasing answered (ih run)

end Interleaves

/-- The deeds of a history, each with its side. -/
def record (history : List (Side × Program.Event Request.Reply)) : List (Side × Deed) :=
  history.filterMap fun entry => entry.2.deed?.map (Prod.mk entry.1)

theorem own_record (side : Side) (history : List (Side × Program.Event Request.Reply)) :
    side.own (record history) = (side.own history).filterMap Program.Event.deed? := by
  induction history with
  | nil => rfl
  | cons entry history ih =>
    obtain ⟨owner, event⟩ := entry
    by_cases own : owner = side
    · cases told : event.deed? <;> simpa [record, Side.own, own, told] using ih
    · cases told : event.deed? <;> simpa [record, Side.own, own, told] using ih

theorem record_deeds (history : List (Side × Program.Event Request.Reply)) :
    (record history).map Prod.snd = (history.map Prod.snd).filterMap Program.Event.deed? := by
  induction history with
  | nil => rfl
  | cons entry history ih =>
    obtain ⟨owner, event⟩ := entry
    cases told : event.deed? <;> simpa [record, told] using ih

end QuorumWarden
