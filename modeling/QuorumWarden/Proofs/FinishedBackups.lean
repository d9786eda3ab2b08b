import Mathlib
import QuorumWarden.Backup.Listing
import QuorumWarden.Proofs.LatestTimes
import QuorumWarden.Proofs.Outcomes

/-! What a listing says of backups. Finished ones alone count: a time that cannot be read does no harm anywhere else,
and neither the order of the entries nor those between them bear on the last completion. -/

namespace QuorumWarden

namespace Backup

/-- The entries of finished backups, in their order. -/
def finished (entries : List Entry) : List Entry := entries.filter (·.status = "DONE")

namespace Entry

variable {entry : Entry} {record : BackupRecord} {time : Timestamp}

/-- Whichever of its times the entry has can be read. -/
def Readable (entry : Entry) : Prop :=
  ∀ text, entry.beginTime = some text ∨ entry.endTime = some text → ∃ time, readTime text = .ok time

def EndsAt (entry : Entry) (time : Timestamp) : Prop := ∃ text, entry.endTime = some text ∧ readTime text = .ok time

/-- The record has what the entry has, with its times as they are read. -/
structure Records (entry : Entry) (record : BackupRecord) : Prop where
  id : record.id = entry.id
  name : record.name = entry.name
  status : record.status = entry.status
  started : Option.Rel (fun text time => readTime text = .ok time) entry.beginTime record.startedAt
  finished : Option.Rel (fun text time => readTime text = .ok time) entry.endTime record.finishedAt

theorem mapM_readTime_iff {text : Option String} {time : Option Timestamp} :
    text.mapM readTime = .ok time ↔ Option.Rel (fun text time => readTime text = .ok time) text time := by
  constructor
  · intro read
    cases text with
    | none =>
      cases read
      exact .none
    | some text =>
      cases one : readTime text with
      | error failure =>
        rw [Option.mapM_some, one] at read
        cases read
      | ok value =>
        rw [Option.mapM_some, one] at read
        cases read
        exact .some one
  · rintro (one | _)
    · rw [Option.mapM_some, one]
      rfl
    · rfl

theorem mapM_readTime_succeeds_iff {text : Option String} :
    (∃ time, text.mapM readTime = .ok time) ↔ ∀ present, text = some present → ∃ time, readTime present = .ok time := by
  simp only [mapM_readTime_iff]
  constructor
  · rintro ⟨_, one | _⟩ present same
    · cases same
      exact ⟨_, one⟩
    · cases same
  · intro readable
    cases text with
    | none => exact ⟨none, .none⟩
    | some text =>
      obtain ⟨time, one⟩ := readable text rfl
      exact ⟨some time, .some one⟩

theorem record_eq_ok_iff : entry.record = .ok record ↔ entry.Records record := by
  constructor
  · intro recorded
    rw [Entry.record] at recorded
    cases started : entry.beginTime.mapM readTime with
    | error failure =>
      rw [started] at recorded
      cases recorded
    | ok startedAt =>
      cases ended : entry.endTime.mapM readTime with
      | error failure =>
        rw [started, ended] at recorded
        cases recorded
      | ok finishedAt =>
        rw [started, ended] at recorded
        cases recorded
        exact ⟨rfl, rfl, rfl, mapM_readTime_iff.mp started, mapM_readTime_iff.mp ended⟩
  · intro kept
    rw [Entry.record, mapM_readTime_iff.mpr kept.started, mapM_readTime_iff.mpr kept.finished, ← kept.id, ← kept.name,
      ← kept.status]
    rfl

theorem record_succeeds_iff : (∃ record, entry.record = .ok record) ↔ entry.Readable := by
  simp only [record_eq_ok_iff]
  constructor
  · rintro ⟨record, kept⟩ text (begins | ends)
    · exact mapM_readTime_succeeds_iff.mp ⟨_, mapM_readTime_iff.mpr kept.started⟩ text begins
    · exact mapM_readTime_succeeds_iff.mp ⟨_, mapM_readTime_iff.mpr kept.finished⟩ text ends
  · intro readable
    obtain ⟨startedAt, started⟩ := mapM_readTime_succeeds_iff.mpr fun text begins => readable text (.inl begins)
    obtain ⟨finishedAt, ended⟩ := mapM_readTime_succeeds_iff.mpr fun text ends => readable text (.inr ends)
    exact ⟨⟨entry.id, entry.name, entry.status, startedAt, finishedAt⟩, rfl, rfl, rfl,
      mapM_readTime_iff.mp started, mapM_readTime_iff.mp ended⟩

theorem Records.finishedAt_eq_some_iff (kept : entry.Records record) :
    record.finishedAt = some time ↔ entry.EndsAt time := by
  have finished := kept.finished
  rw [EndsAt]
  generalize entry.endTime = text at finished ⊢
  generalize record.finishedAt = read at finished ⊢
  cases finished with
  | none => simp
  | some one => simp [one]

theorem Records.finishedAt_eq_none_iff (kept : entry.Records record) :
    record.finishedAt = none ↔ entry.endTime = none := by
  have finished := kept.finished
  generalize entry.endTime = text at finished ⊢
  generalize record.finishedAt = read at finished ⊢
  cases finished <;> simp

end Entry

/-- The last time at which one of these backups ended. -/
structure LastEnd (entries : List Entry) (last : Timestamp) : Prop where
  among : ∃ entry ∈ entries, entry.EndsAt last
  bound : ∀ entry ∈ entries, ∀ time, entry.EndsAt time → ¬last.before time

theorem LastEnd.of_perm {entries others : List Entry} {last : Timestamp} (latest : LastEnd entries last)
    (same : entries.Perm others) : LastEnd others last := by
  obtain ⟨entry, listed, ends⟩ := latest.among
  exact ⟨⟨entry, same.mem_iff.mp listed, ends⟩, fun other among => latest.bound other (same.mem_iff.mpr among)⟩

variable {raw : String} {entries : List Entry} {records : List BackupRecord} {last : Timestamp}

theorem mem_finishedAt_iff (kept : List.Forall₂ Entry.Records entries records) {time : Timestamp} :
    time ∈ records.filterMap (·.finishedAt) ↔ ∃ entry ∈ entries, entry.EndsAt time := by
  induction kept with
  | nil => simp
  | cons one _ ih =>
    rw [List.mem_filterMap] at ih ⊢
    rw [List.exists_mem_cons_iff, List.exists_mem_cons_iff, one.finishedAt_eq_some_iff, ih]

theorem lastCompleted_eq_some_iff_lastEnd (kept : List.Forall₂ Entry.Records entries records) :
    lastCompleted records = some last ↔ LastEnd entries last := by
  rw [lastCompleted_eq_some_iff]
  constructor
  · rintro ⟨among, bound⟩
    exact ⟨(mem_finishedAt_iff kept).mp among, fun entry member time ends =>
      bound time ((mem_finishedAt_iff kept).mpr ⟨entry, member, ends⟩)⟩
  · rintro ⟨among, bound⟩
    refine ⟨(mem_finishedAt_iff kept).mpr among, fun time member => ?_⟩
    obtain ⟨entry, listed, ends⟩ := (mem_finishedAt_iff kept).mp member
    exact bound entry listed time ends

theorem lastCompleted_eq_none_iff_endTime (kept : List.Forall₂ Entry.Records entries records) :
    lastCompleted records = none ↔ ∀ entry ∈ entries, entry.endTime = none := by
  rw [lastCompleted_eq_none_iff]
  induction kept with
  | nil => simp
  | cons one _ ih => rw [List.forall_mem_cons, List.forall_mem_cons, one.finishedAt_eq_none_iff, ih]

theorem completed_eq (entries : List Entry) : completed entries = (finished entries).mapM Entry.record := by
  have same : Entry.isDone = fun entry => decide (entry.status = "DONE") := rfl
  rw [completed, finished, same]

theorem readListing_eq_ok_iff (decoded : Json.decode? entriesDecoder raw = some entries) :
    readListing raw = .ok records ↔ List.Forall₂ Entry.Records (finished entries) records := by
  rw [readListing, decoded]
  simp only [completed_eq, mapM_eq_ok_iff, Entry.record_eq_ok_iff]

theorem readListing_succeeds_iff (decoded : Json.decode? entriesDecoder raw = some entries) :
    (∃ records, readListing raw = .ok records) ↔ ∀ entry ∈ finished entries, entry.Readable := by
  rw [readListing, decoded]
  simp only [completed_eq, mapM_succeeds_iff, Entry.record_succeeds_iff]

theorem readListing_finished (decoded : Json.decode? entriesDecoder raw = some entries) :
    ((∃ records, readListing raw = .ok records) ↔ ∀ entry ∈ finished entries, entry.Readable) ∧
    (∀ records, readListing raw = .ok records → List.Forall₂ Entry.Records (finished entries) records ∧
      (lastCompleted records = none ↔ ∀ entry ∈ finished entries, entry.endTime = none) ∧
      ∀ last, lastCompleted records = some last ↔ LastEnd (finished entries) last) ∧
    ∀ other others, Json.decode? entriesDecoder other = some others → (finished others).Perm (finished entries) →
      ((∃ alike, readListing other = .ok alike) ↔ ∃ records, readListing raw = .ok records) ∧
      ∀ records alike, readListing raw = .ok records → readListing other = .ok alike →
        lastCompleted alike = lastCompleted records := by
  refine ⟨readListing_succeeds_iff decoded, ?listed, ?reordered⟩
  case listed =>
    intro records read
    have kept := (readListing_eq_ok_iff decoded).mp read
    exact ⟨kept, lastCompleted_eq_none_iff_endTime kept, fun _ => lastCompleted_eq_some_iff_lastEnd kept⟩
  case reordered =>
    intro other others also same
    constructor
    · rw [readListing_succeeds_iff decoded, readListing_succeeds_iff also]
      simp only [same.mem_iff]
    · intro records alike read reread
      ext last
      rw [lastCompleted_eq_some_iff_lastEnd ((readListing_eq_ok_iff decoded).mp read),
        lastCompleted_eq_some_iff_lastEnd ((readListing_eq_ok_iff also).mp reread)]
      exact ⟨fun latest => latest.of_perm same, fun latest => latest.of_perm same.symm⟩

/-- Two finished backups and one that failed at a time nobody can read. -/
def listedThree : String :=
  "\x7b\"backups_list\": [" ++
    "\x7b\"backup_id\": \"a\", \"status\": \"FAILED\", \"end_time\": \"never\"\x7d," ++
    "\x7b\"backup_id\": \"b\", \"status\": \"DONE\", \"end_time\": \"Sat Jul  1 03:05:00 2023\"\x7d," ++
    "\x7b\"backup_id\": \"c\", \"status\": \"DONE\", \"end_time\": \"Tue Jun 27 21:41:02 2023\"\x7d]\x7d"

def listedTwo : String :=
  "\x7b\"backups_list\": [" ++
    "\x7b\"backup_id\": \"c\", \"status\": \"DONE\", \"end_time\": \"Tue Jun 27 21:41:02 2023\"\x7d," ++
    "\x7b\"backup_id\": \"b\", \"status\": \"DONE\", \"end_time\": \"Sat Jul  1 03:05:00 2023\"\x7d]\x7d"

theorem readListing_finished_failed : ∃ records alike, readListing listedThree = .ok records ∧
    readListing listedTwo = .ok alike ∧ lastCompleted records = some ⟨1688180700, 0⟩ ∧
    lastCompleted alike = lastCompleted records := by
  let failed : Entry := ⟨"a", none, "FAILED", none, some "never"⟩
  let later : Entry := ⟨"b", none, "DONE", none, some "Sat Jul  1 03:05:00 2023"⟩
  let sooner : Entry := ⟨"c", none, "DONE", none, some "Tue Jun 27 21:41:02 2023"⟩
  have decoded : Json.decode? entriesDecoder listedThree = some [failed, later, sooner] := by decide +kernel
  have also : Json.decode? entriesDecoder listedTwo = some [sooner, later] := by decide +kernel
  have same : (finished [sooner, later]).Perm (finished [failed, later, sooner]) := .swap later sooner []
  obtain ⟨_, _, reordered⟩ := readListing_finished decoded
  obtain ⟨_, alike⟩ := reordered listedTwo [sooner, later] also same
  have read : readListing listedThree = .ok [⟨"b", none, "DONE", none, some ⟨1688180700, 0⟩⟩,
      ⟨"c", none, "DONE", none, some ⟨1687902062, 0⟩⟩] := by
    rw [readListing, decoded]
    decide +kernel
  have reread : readListing listedTwo = .ok [⟨"c", none, "DONE", none, some ⟨1687902062, 0⟩⟩,
      ⟨"b", none, "DONE", none, some ⟨1688180700, 0⟩⟩] := by
    rw [readListing, also]
    decide +kernel
  exact ⟨_, _, read, reread, by decide, alike _ _ read reread⟩

end Backup

end QuorumWarden
