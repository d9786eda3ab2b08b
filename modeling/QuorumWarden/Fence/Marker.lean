import QuorumWarden.Failure

/-! Markers: the three facts a node keeps across restarts, and where they are kept. -/

namespace QuorumWarden

inductive Marker where
  | readonlyLock
  | zombieLock
  | registration
  deriving DecidableEq, Repr

/-- The name of the file that holds the marker. -/
def Marker.fileName : Marker → String
  | .readonlyLock => "readonly.lock"
  | .zombieLock => "zombie.lock"
  | .registration => ".registration-cert"

/-- A place for markers, reached through effects `m`. A marker that is not there reads
as `none`, and removing it again is no failure. -/
class MarkerStore (m : Type → Type) where
  read : Marker → m (Outcome (Option String))
  write : Marker → String → m (Outcome Unit)
  remove : Marker → m (Outcome Unit)

/-- Markers kept in memory. -/
structure Markers where
  readonlyLock : Option String := none
  zombieLock : Option String := none
  registration : Option String := none
  deriving DecidableEq, Repr

namespace Markers

def get (markers : Markers) : Marker → Option String
  | .readonlyLock => markers.readonlyLock
  | .zombieLock => markers.zombieLock
  | .registration => markers.registration

def set (markers : Markers) : Marker → Option String → Markers
  | .readonlyLock, text => { markers with readonlyLock := text }
  | .zombieLock, text => { markers with zombieLock := text }
  | .registration, text => { markers with registration := text }

@[simp] theorem get_set_self (markers : Markers) (marker : Marker) (text : Option String) :
    (markers.set marker text).get marker = text := by cases marker <;> rfl

theorem get_set_of_ne (markers : Markers) {marker other : Marker} (text : Option String)
    (different : other ≠ marker) : (markers.set marker text).get other = markers.get other := by
  cases marker <;> cases other <;> first | rfl | exact absurd rfl different

instance : MarkerStore (StateM Markers) where
  read marker := fun markers => (.ok (markers.get marker), markers)
  write marker text := fun markers => (.ok (), markers.set marker (some text))
  remove marker := fun markers => (.ok (), markers.set marker none)

end Markers

end QuorumWarden
