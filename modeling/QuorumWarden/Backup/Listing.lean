import QuorumWarden.Backup.Due
import QuorumWarden.Failure
import QuorumWarden.Json.Reader
import QuorumWarden.Time.Ctime

/-! The backup tool's listing. Only finished backups count, and only their times are
read. -/

namespace QuorumWarden.Backup

def readTime (raw : String) : Outcome Timestamp :=
  match Ctime.read? raw with
  | some time => .ok time
  | none => .error ((Failure.external "unreadable time").within ("parse barman timestamp '" ++ raw ++ "'"))

/-- An entry of the listing, with its times still as text. -/
structure Entry where
  id : String
  name : Option String
  status : String
  beginTime : Option String
  endTime : Option String
  deriving DecidableEq, Repr

def Entry.decoder : Json.Decoder Entry := fun value => do
  match ← Json.fields? ["backup_id", "backup_name", "status", "begin_time", "end_time"] value with
  | [id, name, status, beginTime, endTime] =>
    some {
      id := ← id.required .text
      name := ← name.withDefault none (.nullable .text)
      status := ← status.required .text
      beginTime := ← beginTime.withDefault none (.nullable .text)
      endTime := ← endTime.withDefault none (.nullable .text) }
  | _ => none

def entriesDecoder : Json.Decoder (List Entry) := fun value => do
  match ← Json.fields? ["backups_list"] value with
  | [entries] => entries.withDefault [] (.list Entry.decoder)
  | _ => none

def Entry.isDone (entry : Entry) : Bool := entry.status == "DONE"

def Entry.record (entry : Entry) : Outcome BackupRecord := do
  let startedAt ← entry.beginTime.mapM readTime
  let finishedAt ← entry.endTime.mapM readTime
  return ⟨entry.id, entry.name, entry.status, startedAt, finishedAt⟩

/-- The finished backups among the entries, in their order. -/
def completed (entries : List Entry) : Outcome (List BackupRecord) :=
  (entries.filter Entry.isDone).mapM Entry.record

def readListing (raw : String) : Outcome (List BackupRecord) :=
  match Json.decode? entriesDecoder raw with
  | some entries => completed entries
  | none => .error ((Failure.external "unreadable listing").within "parse barman backup list json")

end QuorumWarden.Backup
