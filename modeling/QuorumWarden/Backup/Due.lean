import QuorumWarden.Time.Timestamp

/-! When the next full backup is due. -/

namespace QuorumWarden

/-- A backup as the tool lists it. -/
structure BackupRecord where
  id : String
  name : Option String
  status : String
  startedAt : Option Timestamp
  finishedAt : Option Timestamp
  deriving DecidableEq, Repr

/-- What is asked of the tool. -/
structure BackupRequest where
  immediateCheckpoint : Bool := false
  name : Option String := none
  deriving DecidableEq, Repr

namespace Backup

/-- The latest time at which a listed backup finished. -/
def lastCompleted (backups : List BackupRecord) : Option Timestamp :=
  (backups.filterMap (·.finishedAt)).foldl
    (fun latest finished => some ((latest.map (·.later finished)).getD finished)) none

/-- How long from now the next backup is due: a frequency after the last one, at once
if there was none, and never soon if the calendar ends before it. -/
def timeUntilDue (last : Option Timestamp) (frequency : Duration) (now : Timestamp) : TimeDelta :=
  match last with
  | none => -1000000000
  | some last =>
    match last.plus? (TimeDelta.ofDuration frequency) with
    | some due => due.minus now
    | none => TimeDelta.longest

end Backup

end QuorumWarden
