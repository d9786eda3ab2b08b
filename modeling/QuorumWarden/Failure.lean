/-! Failures as causes with contexts. A failure keeps why it happened as data; its
wording is a function of that data, and no caller decides by looking at the wording. -/

namespace QuorumWarden

/-- The root of a failure. `external` carries the wording of a collaborator, which
is not part of what this program says. -/
inductive Cause where
  | cancelled
  | readonlyUnverified (database : String)
  | retriesExhausted (attempts : Nat) (lastFailure : String)
  | message (text : String)
  | external (text : String)
  deriving DecidableEq, Repr

namespace Cause

def text : Cause → String
  | .cancelled => "operation cancelled"
  | .readonlyUnverified database =>
    "database '" ++ database ++ "' did not report default_transaction_read_only=on after quarantine"
  | .retriesExhausted attempts lastFailure =>
    "full backup failed after " ++ toString attempts ++ " attempts: " ++ lastFailure
  | .message text => text
  | .external text => text

def isExternal : Cause → Bool
  | .external _ => true
  | _ => false

end Cause

/-- A cause and what was being done when it arose, outermost activity first. -/
structure Failure where
  contexts : List String := []
  cause : Cause
  deriving DecidableEq, Repr

namespace Failure

def cancelled : Failure := { cause := .cancelled }

def message (text : String) : Failure := { cause := .message text }

def external (text : String) : Failure := { cause := .external text }

def within (context : String) (failure : Failure) : Failure :=
  { failure with contexts := context :: failure.contexts }

def isCancelled (failure : Failure) : Bool := failure.cause = .cancelled

def chain (failure : Failure) : List String := failure.contexts ++ [failure.cause.text]

/-- The whole chain on one line. -/
def full (failure : Failure) : String := ": ".intercalate failure.chain

/-- The outermost text alone. -/
def headline (failure : Failure) : String := failure.chain.headD ""

/-- The chain without a collaborator's wording at its end. -/
def ownText (failure : Failure) : String :=
  if failure.cause.isExternal then ": ".intercalate failure.contexts else failure.full

@[simp] theorem isCancelled_within (context : String) (failure : Failure) :
    (failure.within context).isCancelled = failure.isCancelled := rfl

@[simp] theorem chain_within (context : String) (failure : Failure) :
    (failure.within context).chain = context :: failure.chain := rfl

end Failure

abbrev Outcome (α : Type) := Except Failure α

/-- Names the activity in which `action` may fail. -/
def inContext {m : Type → Type} [Monad m] {α : Type} (context : String) (action : ExceptT Failure m α) :
    ExceptT Failure m α :=
  ExceptT.mk do return (← action.run).mapError (Failure.within context)

end QuorumWarden
