import QuorumWarden.Backup.Attempts
import QuorumWarden.Backup.Barman
import QuorumWarden.Backup.Due
import QuorumWarden.Backup.Listing
import QuorumWarden.Catalog.Member
import QuorumWarden.Catalog.MemberRecord
import QuorumWarden.Catalog.Topology
import QuorumWarden.Failure
import QuorumWarden.Fence.Files
import QuorumWarden.Fence.Ledger
import QuorumWarden.Fence.Marker
import QuorumWarden.Files.Filing
import QuorumWarden.Files.Order
import QuorumWarden.Files.Path
import QuorumWarden.Files.Tree
import QuorumWarden.Json.Reader
import QuorumWarden.Json.Value
import QuorumWarden.Json.Writer
import QuorumWarden.Main
import QuorumWarden.Metrics
import QuorumWarden.Node
import QuorumWarden.Peer.Address
import QuorumWarden.Peer.Http
import QuorumWarden.Pooler.Databases
import QuorumWarden.Port
import QuorumWarden.Postgres.Connection
import QuorumWarden.Postgres.Row
import QuorumWarden.Postgres.Statement
import QuorumWarden.Procedure
import QuorumWarden.Program
import QuorumWarden.Proofs.ActionReturns
import QuorumWarden.Proofs.ActionRules
import QuorumWarden.Proofs.BackupDue
import QuorumWarden.Proofs.BackupPace
import QuorumWarden.Proofs.BoundedRetry
import QuorumWarden.Proofs.Bulletins
import QuorumWarden.Proofs.CatalogMajority
import QuorumWarden.Proofs.Companies
import QuorumWarden.Proofs.CrewFrames
import QuorumWarden.Proofs.DayCount
import QuorumWarden.Proofs.DeadMemberHistory
import QuorumWarden.Proofs.DeadMemberPasses
import QuorumWarden.Proofs.EngageBesideRelease
import QuorumWarden.Proofs.Evaluations
import QuorumWarden.Proofs.ExactVerdict
import QuorumWarden.Proofs.FenceOperations
import QuorumWarden.Proofs.FenceTranscripts
import QuorumWarden.Proofs.FinishedBackups
import QuorumWarden.Proofs.FirstFailure
import QuorumWarden.Proofs.FollowedPaths
import QuorumWarden.Proofs.FreeRuns
import QuorumWarden.Proofs.FrequencyWatch
import QuorumWarden.Proofs.GivingWay
import QuorumWarden.Proofs.GroundRules
import QuorumWarden.Proofs.GroupJoins
import QuorumWarden.Proofs.IdleSlotHistory
import QuorumWarden.Proofs.IdleSlotPasses
import QuorumWarden.Proofs.Instants
import QuorumWarden.Proofs.Interleavings
import QuorumWarden.Proofs.InterruptedWrites
import QuorumWarden.Proofs.JsonGrammar
import QuorumWarden.Proofs.JsonReading
import QuorumWarden.Proofs.JsonWriting
import QuorumWarden.Proofs.KeptMarkers
import QuorumWarden.Proofs.LatestTimes
import QuorumWarden.Proofs.LedgerOnFiles
import QuorumWarden.Proofs.LoopRounds
import QuorumWarden.Proofs.LoopTimes
import QuorumWarden.Proofs.MadeDirectories
import QuorumWarden.Proofs.MarkerDirectory
import QuorumWarden.Proofs.MemberRecords
import QuorumWarden.Proofs.MirrorConvergence
import QuorumWarden.Proofs.MirrorRelease
import QuorumWarden.Proofs.NodeGround
import QuorumWarden.Proofs.Numerals
import QuorumWarden.Proofs.Outcomes
import QuorumWarden.Proofs.PassRules
import QuorumWarden.Proofs.PassRuns
import QuorumWarden.Proofs.PathTexts
import QuorumWarden.Proofs.PausedClock
import QuorumWarden.Proofs.PlayedGround
import QuorumWarden.Proofs.PrintedTexts
import QuorumWarden.Proofs.PrintedTimes
import QuorumWarden.Proofs.ProgramRuns
import QuorumWarden.Proofs.QuarantineRules
import QuorumWarden.Proofs.QuarantineUndone
import QuorumWarden.Proofs.QuorumAgreement
import QuorumWarden.Proofs.QuorumTally
import QuorumWarden.Proofs.QuorumVerdict
import QuorumWarden.Proofs.QuotedNames
import QuorumWarden.Proofs.ReadonlyFlags
import QuorumWarden.Proofs.RecordedFence
import QuorumWarden.Proofs.RecordedRuns
import QuorumWarden.Proofs.RecordedVerdict
import QuorumWarden.Proofs.RecoveryRetried
import QuorumWarden.Proofs.ReplayedDeeds
import QuorumWarden.Proofs.RetryPlan
import QuorumWarden.Proofs.RoleGaps
import QuorumWarden.Proofs.RoundCourses
import QuorumWarden.Proofs.SampleOrder
import QuorumWarden.Proofs.ScheduleEvaluation
import QuorumWarden.Proofs.ScheduleRounds
import QuorumWarden.Proofs.SlotNames
import QuorumWarden.Proofs.StageFrames
import QuorumWarden.Proofs.SteadyCompanies
import QuorumWarden.Proofs.SteadyDuties
import QuorumWarden.Proofs.StoppedCompanies
import QuorumWarden.Proofs.SuspectFenced
import QuorumWarden.Proofs.TaskRuns
import QuorumWarden.Proofs.TextRules
import QuorumWarden.Proofs.TickAftermath
import QuorumWarden.Proofs.TimedWaits
import QuorumWarden.Proofs.Timetable
import QuorumWarden.Proofs.TreeChanges
import QuorumWarden.Proofs.TurnManners
import QuorumWarden.Proofs.TwoLocks
import QuorumWarden.Proofs.UnheededEndings
import QuorumWarden.Quarantine
import QuorumWarden.Quorum.Sample
import QuorumWarden.Readonly
import QuorumWarden.Settings.Arguments
import QuorumWarden.Settings.Config
import QuorumWarden.Settings.Flag
import QuorumWarden.Simulation.Cluster
import QuorumWarden.Simulation.Crew
import QuorumWarden.Simulation.Drill
import QuorumWarden.Simulation.DutyCrew
import QuorumWarden.Simulation.LoneNode
import QuorumWarden.Simulation.Rehearsal
import QuorumWarden.Simulation.Script
import QuorumWarden.Simulation.Stage
import QuorumWarden.Simulation.Turn
import QuorumWarden.Supervision.Duty
import QuorumWarden.Supervision.Group
import QuorumWarden.Text.Blank
import QuorumWarden.Text.Number
import QuorumWarden.Text.Split
import QuorumWarden.Text.Utf8
import QuorumWarden.Time.Calendar
import QuorumWarden.Time.Ctime
import QuorumWarden.Time.Duration
import QuorumWarden.Time.Timestamp
import QuorumWarden.Watch.BackupSchedule
import QuorumWarden.Watch.Clocks
import QuorumWarden.Watch.ClusterState
import QuorumWarden.Watch.DeadMembers
import QuorumWarden.Watch.IdleSlots
import QuorumWarden.Watch.Loop
import QuorumWarden.Watch.Monitor
import QuorumWarden.Watch.ReadonlyMirror
import QuorumWarden.Watch.Retention
