import QuorumWarden.Fence.Marker
import QuorumWarden.Text.Blank

/-! What the markers mean. A zombie lock outranks a readonly lock, and a node may take
writes only while it holds neither. -/

namespace QuorumWarden

inductive FenceState where
  | unfenced
  | readonly
  | zombie (deferredTo : Option String)
  deriving DecidableEq, Repr

def FenceState.allowsWrites : FenceState → Bool
  | .unfenced => true
  | _ => false

namespace Fence

variable {m : Type → Type} [Monad m] [MarkerStore m]

def read (marker : Marker) : ExceptT Failure m (Option String) := ExceptT.mk (MarkerStore.read marker)

def write (marker : Marker) (text : String) : ExceptT Failure m Unit :=
  ExceptT.mk (MarkerStore.write marker text)

def remove (marker : Marker) : ExceptT Failure m Unit := ExceptT.mk (MarkerStore.remove marker)

def holds (marker : Marker) : ExceptT Failure m Bool := return (← read marker).isSome

def state : ExceptT Failure m FenceState := do
  match ← read .zombieLock with
  | some text => return .zombie (Text.nonBlank? text)
  | none => return if ← holds .readonlyLock then .readonly else .unfenced

def isZombie : ExceptT Failure m Bool := holds .zombieLock

/-- The host that this node gave way to, if it knows one. -/
def deferredPrimary : ExceptT Failure m (Option String) :=
  return (← read .zombieLock).bind Text.nonBlank?

def takeZombieLock (deferredTo : String) : ExceptT Failure m Unit :=
  inContext "write zombie lock" (write .zombieLock (Text.trim deferredTo))

def dropZombieLock : ExceptT Failure m Unit := inContext "remove zombie lock" (remove .zombieLock)

def isReadonlyLocked : ExceptT Failure m Bool := holds .readonlyLock

def takeReadonlyLock : ExceptT Failure m Unit := inContext "write readonly lock" (write .readonlyLock "")

def dropReadonlyLock : ExceptT Failure m Unit := inContext "remove readonly lock" (remove .readonlyLock)

def isRegistered : ExceptT Failure m Bool := holds .registration

def register (hostname : String) : ExceptT Failure m Unit :=
  inContext "write registration certificate" (write .registration hostname)

def unregister : ExceptT Failure m Unit :=
  inContext "remove registration certificate" (remove .registration)

end Fence

end QuorumWarden
