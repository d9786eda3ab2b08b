import QuorumWarden.Procedure

/-! Clocks of a watch: since when something has been so, per member. A pass that fails
keeps what its clocks have learnt so far. -/

namespace QuorumWarden

/-- Instants of the steady clock by member; each member occurs at most once. -/
structure Clocks where
  since : List (Int × Nat) := []
  deriving DecidableEq, Repr

namespace Clocks

def get? (clocks : Clocks) (id : Int) : Option Nat := clocks.since.lookup id

def stop (clocks : Clocks) (id : Int) : Clocks := ⟨clocks.since.filter (·.1 != id)⟩

/-- Sets the clock, whether it runs or not. -/
def restart (clocks : Clocks) (id : Int) (now : Nat) : Clocks := ⟨(id, now) :: (clocks.stop id).since⟩

/-- Starts the clock unless it runs. -/
def start (clocks : Clocks) (id : Int) (now : Nat) : Clocks :=
  match clocks.get? id with
  | some _ => clocks
  | none => clocks.restart id now

/-- How long the clock has run. An instant before its start counts as the start. -/
def elapsed (clocks : Clocks) (id : Int) (now : Nat) : Nat := now - (clocks.get? id).getD now

def keepOnly (clocks : Clocks) (keep : Int → Bool) : Clocks := ⟨clocks.since.filter fun entry => keep entry.1⟩

@[simp] theorem get?_keepOnly (clocks : Clocks) (keep : Int → Bool) (id : Int) :
    (clocks.keepOnly keep).get? id = if keep id then clocks.get? id else none := by
  simp only [get?, keepOnly]
  induction clocks.since with
  | nil => simp
  | cons entry rest ih =>
    obtain ⟨member, start⟩ := entry
    simp only [List.filter_cons]
    by_cases same : id = member
    · subst same
      cases kept : keep id with
      | true => simp
      | false => simpa [kept] using ih
    · have other : (id == member) = false := beq_eq_false_iff_ne.mpr same
      split <;> simp [List.lookup_cons, other, ih]

@[simp] theorem get?_stop (clocks : Clocks) (id other : Int) :
    (clocks.stop id).get? other = if other = id then none else clocks.get? other := by
  have kept : (clocks.stop id).get? other = _ := clocks.get?_keepOnly (· != id) other
  rw [kept]
  by_cases here : other = id <;> simp [here]

@[simp] theorem get?_restart (clocks : Clocks) (id other : Int) (now : Nat) :
    (clocks.restart id now).get? other = if other = id then some now else clocks.get? other := by
  change List.lookup other ((id, now) :: (clocks.stop id).since) = _
  rw [List.lookup_cons]
  by_cases here : other = id
  · simp [here]
  · have stopped := clocks.get?_stop id other
    rw [if_neg here] at stopped ⊢
    rw [beq_eq_false_iff_ne.mpr here]
    exact stopped

@[simp] theorem get?_start (clocks : Clocks) (id other : Int) (now : Nat) :
    (clocks.start id now).get? other = if other = id then some ((clocks.get? id).getD now) else clocks.get? other := by
  unfold start
  split
  next since running =>
    by_cases here : other = id
    · simp [here, running]
    · simp [here]
  next idle => simp [idle]

@[simp] theorem elapsed_start (clocks : Clocks) (id : Int) (now : Nat) :
    (clocks.start id now).elapsed id now = now - (clocks.get? id).getD now := by
  simp [elapsed]

end Clocks

/-- An action with clocks, which outlive its failure. -/
abbrev Pass := ExceptT Failure (StateT Clocks Procedure)

namespace Pass

variable {α : Type}

def act (action : Action α) : Pass α := ExceptT.mk (StateT.lift action.run)

instance : MonadLift Action Pass where
  monadLift := act

def update (change : Clocks → Clocks) : Pass Unit := ExceptT.lift (modifyGet fun clocks => ((), change clocks))

def clocks : Pass Clocks := ExceptT.lift get

/-- The result of a pass and the clocks after it. -/
def runFrom (pass : Pass α) (clocks : Clocks) : Procedure (Outcome α × Clocks) := pass.run clocks

end Pass

end QuorumWarden
