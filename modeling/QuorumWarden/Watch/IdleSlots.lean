import QuorumWarden.Node
import QuorumWarden.Watch.Clocks

/-! The watch of a primary over replication slots: one whose member is gone is dropped at
once, one that stays inactive too long after that time. Slots that are not named after
a member are left alone. -/

namespace QuorumWarden

structure SlotSettings where
  interval : Duration
  inactiveThreshold : Duration
  walWarnMegabytes : Nat
  deriving DecidableEq, Repr

/-- The slots that a pass dropped, by reason. -/
structure DroppedSlots where
  orphaned : List String := []
  expired : List String := []
  deriving DecidableEq, Repr

namespace IdleSlots

/-- What became of a slot. -/
inductive Fate where
  | left
  | idle (member : Int)
  | orphaned
  | expired
  deriving DecidableEq, Repr

/-- Drops a slot; says whether that worked. -/
def drop (session : Session) (name : String) : Pass Bool := do
  let dropped ← Action.settled
    (inContext ("drop replication slot " ++ name) (Action.guarded (session.dropSlot name)))
  match dropped with
  | .error _ => return false
  | .ok () =>
    Pass.act (ExceptT.lift (Procedure.count .slotsDropped))
    return true

def visitIdle (settings : SlotSettings) (session : Session) (now : Nat) (slot : Slot) (member : Int) :
    Pass Fate := do
  if settings.walWarnMegabytes < slot.retainedMegabytes then
    Pass.act (ExceptT.lift (Procedure.notice (.slotRetains slot.name member slot.retainedMegabytes)))
  Pass.update (·.start member now)
  if (← Pass.clocks).elapsed member now ≤ settings.inactiveThreshold.nanos then return .idle member
  if ← drop session slot.name then
    Pass.update (·.stop member)
    return .expired
  else return .idle member

def visit (settings : SlotSettings) (session : Session) (topology : Topology) (now : Nat) (slot : Slot) :
    Pass Fate := do
  match slot.member? with
  | none => return .left
  | some member =>
    if slot.active then return .left
    else if topology.standbys.any (·.id == member) then visitIdle settings session now slot member
    else if ← drop session slot.name then return .orphaned
    else return .left

def visitEach (settings : SlotSettings) (session : Session) (topology : Topology) (now : Nat) :
    List Slot → Pass (List (Slot × Fate))
  | [] => return []
  | slot :: rest => do
    let fate ← visit settings session topology now slot
    return (slot, fate) :: (← visitEach settings session topology now rest)

/-- The names of the slots that came to this end. -/
def named (fates : List (Slot × Fate)) (fate : Fate) : List String :=
  (fates.filter (·.2 = fate)).map (·.1.name)

/-- One pass at an instant. Only slots that are idle after it keep their clocks. -/
def reap (host : String) (settings : SlotSettings) (now : Nat) : Pass DroppedSlots := do
  let (session, topology) ← Action.guarded (Node.survey host)
  let row ← Pass.act (liftExcept (topology.row host))
  if !row.isPrimary then return {}
  let slots ← inContext "list replication slots" (Action.guarded session.slots)
  let fates ← visitEach settings session topology now slots
  Pass.update (·.keepOnly fun id => fates.any (·.2 = .idle id))
  return { orphaned := named fates .orphaned, expired := named fates .expired }

end IdleSlots

end QuorumWarden
