import QuorumWarden.Backup.Barman
import QuorumWarden.Pooler.Databases
import QuorumWarden.Postgres.Connection
import QuorumWarden.Settings.Arguments
import QuorumWarden.Supervision.Duty
import QuorumWarden.Text.Blank

/-! The configuration of a node, and what must hold before anything starts. -/

namespace QuorumWarden

structure BackupSettings where
  frequency : Duration
  duties : BackupDuties
  barman : Barman
  deriving DecidableEq, Repr

structure Config where
  hostname : String
  dataDirectory : String
  sessions : SessionSettings
  adminPort : Nat
  httpTimeout : Duration
  watches : WatchSettings
  backups : Option BackupSettings
  pooler : Pooler.Settings
  deriving DecidableEq, Repr

namespace Config

/-- The lengths of time that must not be zero, with their names. -/
def lengths (config : Config) : List (String × Duration) :=
  [("cluster-state-interval", config.watches.clusterStateInterval),
    ("dead-member-interval", config.watches.deadMemberInterval),
    ("slot-monitor-interval", config.watches.slots.interval),
    ("readonly-poll-interval", config.watches.readonlyPollInterval),
    ("connect-timeout", config.sessions.connectTimeout),
    ("statement-timeout", config.sessions.statementTimeout),
    ("http-timeout", config.httpTimeout)] ++
  match config.backups with
  | none => []
  | some backups =>
    [("full-backup-frequency", backups.frequency), ("backup-retention-interval", backups.duties.retentionInterval)]

def validateBackups (backups : BackupSettings) : Outcome Unit := do
  if backups.duties.retry.maxAttempts = 0 then throw (.message "backup-max-attempts must be at least 1")
  if backups.barman.destination.isEmpty then
    throw (.message "barman-destination is required when backups are enabled")

def validate (config : Config) : Outcome Unit := do
  if config.hostname.isEmpty then throw (.message "hostname must not be empty")
  config.backups.forM validateBackups
  match config.lengths.find? (·.2.isZero) with
  | some (name, _) => throw (.message (name ++ " must be greater than zero"))
  | none => return ()

section
variable (values : Values)

def seconds (flag : Flag) : Duration := .ofSeconds (values.number flag)

def hostnameOf : String := Text.trim (values.word .hostname)

def watchesOf : WatchSettings where
  clusterStateInterval := seconds values .clusterStateInterval
  deadMemberInterval := seconds values .deadMemberInterval
  deadMemberThreshold := seconds values .deadMemberThreshold
  slots := {
    interval := seconds values .slotInterval
    inactiveThreshold := seconds values .slotThreshold
    walWarnMegabytes := values.number .slotWalWarn }
  readonlyPollInterval := seconds values .readonlyPollInterval

def barmanOf : Barman where
  binDir := values.get? .barmanBinDir
  destination := values.word .barmanDestination
  serverName := values.word .barmanServerName
  endpointUrl := values.get? .barmanEndpointUrl
  recoveryWindow := values.word .barmanRecoveryWindow
  pgHost := hostnameOf values
  pgPort := values.number .pgPort
  pgUser := values.word .pgUser

def backupsOf : BackupSettings where
  frequency := seconds values .backupFrequency
  duties := {
    retentionInterval := seconds values .retentionInterval
    retry := { maxAttempts := values.number .backupAttempts, delay := seconds values .backupRetryDelay } }
  barman := barmanOf values

/-- The pooler is reached with the credentials for sessions. -/
def poolerOf : Pooler.Settings where
  databasesFile := values.word .poolerDatabases
  upstreamPort := values.number .pgPort
  adminPort := values.number .poolerPort
  adminUser := values.word .pgUser
  adminPassword := values.word .pgPassword
  connectTimeout := seconds values .connectTimeout

def ofValues : Config where
  hostname := hostnameOf values
  dataDirectory := values.word .dataDir
  sessions := {
    port := values.number .pgPort
    user := values.word .pgUser
    password := values.word .pgPassword
    database := values.word .pgDatabase
    connectTimeout := seconds values .connectTimeout
    statementTimeout := seconds values .statementTimeout }
  adminPort := values.number .adminPort
  httpTimeout := seconds values .httpTimeout
  watches := watchesOf values
  backups := if values.isOn .backupsEnabled then some (backupsOf values) else none
  pooler := poolerOf values

end

/-- The configuration that the values make, if it is sound. -/
def make (values : Values) : Outcome Config := do
  let config := ofValues values
  config.validate
  return config

/-- What the node is to do under this configuration. -/
def orders (config : Config) : Orders where
  host := config.hostname
  watches := config.watches
  backups := config.backups.map BackupSettings.duties

end Config

end QuorumWarden
