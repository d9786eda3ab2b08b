import QuorumWarden.Text.Number

/-! The flags of the command line. Every flag can be set by a variable of the environment
instead, and most have a default. -/

namespace QuorumWarden

inductive Flag where
  | hostname
  | dataDir
  | pgPort
  | pgUser
  | pgPassword
  | pgDatabase
  | connectTimeout
  | statementTimeout
  | adminPort
  | httpTimeout
  | clusterStateInterval
  | deadMemberInterval
  | deadMemberThreshold
  | slotInterval
  | slotThreshold
  | slotWalWarn
  | readonlyPollInterval
  | backupsEnabled
  | backupFrequency
  | retentionInterval
  | backupAttempts
  | backupRetryDelay
  | barmanBinDir
  | barmanDestination
  | barmanServerName
  | barmanEndpointUrl
  | barmanRecoveryWindow
  | poolerPort
  | poolerDatabases
  deriving DecidableEq, Repr

namespace Flag

/-- All flags, in the order in which the environment is searched for them. -/
def all : List Flag :=
  [hostname, dataDir, pgPort, pgUser, pgPassword, pgDatabase, connectTimeout, statementTimeout, adminPort,
    httpTimeout, clusterStateInterval, deadMemberInterval, deadMemberThreshold, slotInterval, slotThreshold,
    slotWalWarn, readonlyPollInterval, backupsEnabled, backupFrequency, retentionInterval, backupAttempts,
    backupRetryDelay, barmanBinDir, barmanDestination, barmanServerName, barmanEndpointUrl,
    barmanRecoveryWindow, poolerPort, poolerDatabases]

theorem mem_all (flag : Flag) : flag ∈ all := by cases flag <;> decide

/-- The name on the command line, after two dashes. -/
def name : Flag → String
  | hostname => "hostname"
  | dataDir => "data-dir"
  | pgPort => "pg-port"
  | pgUser => "pg-user"
  | pgPassword => "pg-password"
  | pgDatabase => "pg-database"
  | connectTimeout => "connect-timeout-secs"
  | statementTimeout => "statement-timeout-secs"
  | adminPort => "admin-port"
  | httpTimeout => "http-timeout-secs"
  | clusterStateInterval => "cluster-state-interval-secs"
  | deadMemberInterval => "dead-member-interval-secs"
  | deadMemberThreshold => "dead-member-removal-threshold-secs"
  | slotInterval => "slot-monitor-interval-secs"
  | slotThreshold => "inactive-slot-removal-threshold-secs"
  | slotWalWarn => "slot-wal-warn-mb"
  | readonlyPollInterval => "readonly-poll-interval-secs"
  | backupsEnabled => "backups-enabled"
  | backupFrequency => "full-backup-frequency-secs"
  | retentionInterval => "backup-retention-interval-secs"
  | backupAttempts => "backup-max-attempts"
  | backupRetryDelay => "backup-retry-delay-secs"
  | barmanBinDir => "barman-bin-dir"
  | barmanDestination => "barman-destination"
  | barmanServerName => "barman-server-name"
  | barmanEndpointUrl => "barman-endpoint-url"
  | barmanRecoveryWindow => "barman-recovery-window"
  | poolerPort => "pgbouncer-port"
  | poolerDatabases => "pgbouncer-databases-ini"

/-- The variable of the environment: the name in capitals, with a fixed start. -/
def variableName (flag : Flag) : String :=
  "HOLO_GUARD_" ++ String.ofList (flag.name.toList.map fun c => if c = '-' then '_' else c.toUpper)

/-- What a flag's value is. A port or count may be written with a sign, a length of time
or an amount only with a plus sign. -/
inductive Kind where
  | word
  | path
  | switch
  | signed (high : Nat)
  | unsigned
  deriving DecidableEq, Repr

def kind : Flag → Kind
  | pgPort | adminPort | poolerPort => .signed 65535
  | backupAttempts => .signed 4294967295
  | connectTimeout | statementTimeout | httpTimeout | clusterStateInterval | deadMemberInterval => .unsigned
  | deadMemberThreshold | slotInterval | slotThreshold | slotWalWarn | readonlyPollInterval => .unsigned
  | backupFrequency | retentionInterval | backupRetryDelay => .unsigned
  | backupsEnabled => .switch
  | dataDir | barmanBinDir | poolerDatabases => .path
  | hostname | pgUser | pgPassword | pgDatabase => .word
  | barmanDestination | barmanServerName | barmanEndpointUrl | barmanRecoveryWindow => .word

/-- The value of a flag that is set nowhere. A number without one is zero. -/
def default? : Flag → Option String
  | hostname | barmanBinDir | barmanEndpointUrl | backupsEnabled => none
  | dataDir => some "/data"
  | pgPort => some "5433"
  | pgUser => some "repmgr"
  | pgPassword => some ""
  | pgDatabase => some "repmgr"
  | connectTimeout => some "5"
  | statementTimeout => some "30"
  | adminPort => some "5500"
  | httpTimeout => some "5"
  | clusterStateInterval => some "60"
  | deadMemberInterval => some "3600"
  | deadMemberThreshold => some "86400"
  | slotInterval => some "3600"
  | slotThreshold => some "43200"
  | slotWalWarn => some "50"
  | readonlyPollInterval => some "15"
  | backupFrequency => some "86400"
  | retentionInterval => some "3600"
  | backupAttempts => some "10"
  | backupRetryDelay => some "30"
  | barmanDestination => some ""
  | barmanServerName => some "holo"
  | barmanRecoveryWindow => some "7 DAYS"
  | poolerPort => some "6432"
  | poolerDatabases => some "/data/pgbouncer.databases.ini"

/-- The number that a value stands for. -/
def number? (flag : Flag) (value : String) : Option Nat :=
  match flag.kind with
  | .signed high => (Text.integerWithin? 0 high value).map Int.toNat
  | .unsigned => Text.naturalUpTo? 18446744073709551615 value
  | _ => none

end Flag

end QuorumWarden
