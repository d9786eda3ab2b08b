import QuorumWarden.Simulation.Crew
import QuorumWarden.Supervision.Duty

/-! The crew of a node's duties. -/

namespace QuorumWarden

/-- All duties of a node side by side. -/
structure DutyCrew (κ : Type) where
  orders : Orders
  crew : Crew Duty κ

namespace DutyCrew

variable {κ : Type}

/-- All duties, before any of them has begun. -/
def all (orders : Orders) (stage : Stage κ) : DutyCrew κ :=
  let begin := fun (crew : Crew Duty κ) (duty : Duty) => crew.add duty.name (duty.round orders)
  ⟨orders, (Duty.all orders stage.now).foldl begin ⟨stage, [], 0⟩⟩

def onStage (duties : DutyCrew κ) (change : Stage κ → Stage κ) : DutyCrew κ :=
  { duties with crew := { duties.crew with stage := change duties.crew.stage } }

def world (duties : DutyCrew κ) : κ := duties.crew.stage.world

def inWorld (duties : DutyCrew κ) (change : κ → κ) : DutyCrew κ :=
  duties.onStage fun stage => { stage with world := change stage.world }

def requestStop (duties : DutyCrew κ) : DutyCrew κ := duties.onStage Stage.requestStop

def sendFrequency (duties : DutyCrew κ) (value : Duration) : DutyCrew κ :=
  duties.onStage fun stage => { stage with frequency := stage.frequency.send value }

/-- After this no other frequency comes. -/
def endFrequency (duties : DutyCrew κ) : DutyCrew κ :=
  duties.onStage fun stage => { stage with frequency := { stage.frequency with live := false } }

variable [World κ] [MarkerStore (StateM κ)]

def advance (duties : DutyCrew κ) (millis : Nat) : DutyCrew κ :=
  { duties with crew := duties.crew.advance (Duty.round duties.orders) millis }

/-- Lets every duty do what it can at the present instant. -/
def settled (duties : DutyCrew κ) : DutyCrew κ :=
  { duties with crew := duties.crew.settled (Duty.round duties.orders) }

/-- Stops all duties and joins them, those that have ended before included. -/
def stopAndJoin (duties : DutyCrew κ) : Option (Outcome Unit) × DutyCrew κ :=
  let tasks := duties.crew.size + duties.crew.stage.endings.length
  let (outcome, crew) := duties.requestStop.crew.runBeside (Duty.round duties.orders) none (2 * tasks + 2)
    (Group.join tasks).run
  (outcome, { duties with crew })

/-- Supervises all duties until a shutdown. They have their first turns before it. -/
def supervised (duties : DutyCrew κ) (shutdownAt : Option Nat) : Option (Outcome Unit) × DutyCrew κ :=
  let tasks := duties.crew.size
  let (outcome, crew) := duties.crew.runBeside (Duty.round duties.orders) none (2 * tasks + 2)
    (Group.supervise shutdownAt tasks).run
  (outcome, { duties with crew })

end DutyCrew

end QuorumWarden
