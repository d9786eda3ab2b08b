import QuorumWarden.Backup.Listing
import QuorumWarden.Text.Utf8

/-! The barman-cloud programs: their command lines, and what their exit says. -/

namespace QuorumWarden

structure Barman where
  binDir : Option String := none
  destination : String
  serverName : String
  endpointUrl : Option String := none
  recoveryWindow : String
  pgHost : String
  pgPort : Nat
  pgUser : String
  deriving DecidableEq, Repr

namespace Barman

inductive Job where
  | backup (request : BackupRequest)
  | list
  | prune
  deriving DecidableEq, Repr

def Job.program : Job → String
  | .backup _ => "barman-cloud-backup"
  | .list => "barman-cloud-backup-list"
  | .prune => "barman-cloud-backup-delete"

/-- What is said of the backup itself. -/
def backupArguments (barman : Barman) (request : BackupRequest) : List String :=
  ["--host", barman.pgHost, "--port", toString barman.pgPort, "--user", barman.pgUser] ++
    (if request.immediateCheckpoint then ["--immediate-checkpoint"] else []) ++
    (match request.name with
      | some name => ["--name", name]
      | none => [])

def ownArguments (barman : Barman) : Job → List String
  | .backup request => barman.backupArguments request
  | .list => ["--format", "json"]
  | .prune => ["--retention-policy", "RECOVERY WINDOW OF " ++ barman.recoveryWindow]

/-- The endpoint comes first and the archive last. -/
def arguments (barman : Barman) (job : Job) : List String :=
  (match barman.endpointUrl with
    | some url => ["--endpoint-url", url]
    | none => []) ++ barman.ownArguments job ++ [barman.destination, barman.serverName]

/-- The file of the program; without a directory it is looked up by its name. -/
def file (barman : Barman) (job : Job) : String :=
  match barman.binDir with
  | some directory => directory ++ (if directory.endsWith "/" then "" else "/") ++ job.program
  | none => job.program

/-- The longest argument of a program, in bytes. -/
def longestArgument : Nat := 131071

/-- Whether the program can be given its command line at all. -/
def isStartable (barman : Barman) (job : Job) : Bool :=
  (barman.file job :: barman.arguments job).all fun argument =>
    !argument.toList.contains '\x00' && argument.utf8ByteSize ≤ longestArgument

/-- How a program ended. -/
inductive Exit where
  | code (number : Nat)
  | signal (number : Nat)
  deriving DecidableEq, Repr

def signalNames : List String :=
  ["SIGHUP", "SIGINT", "SIGQUIT", "SIGILL", "SIGTRAP", "SIGABRT", "SIGBUS", "SIGFPE", "SIGKILL", "SIGUSR1",
    "SIGSEGV", "SIGUSR2", "SIGPIPE", "SIGALRM", "SIGTERM", "SIGSTKFLT", "SIGCHLD", "SIGCONT", "SIGSTOP",
    "SIGTSTP", "SIGTTIN", "SIGTTOU", "SIGURG", "SIGXCPU", "SIGXFSZ", "SIGVTALRM", "SIGPROF", "SIGWINCH",
    "SIGIO", "SIGPWR", "SIGSYS"]

def signalName? : Nat → Option String
  | 0 => none
  | number + 1 => signalNames[number]?

def Exit.text : Exit → String
  | .code number => "exit status: " ++ toString number
  | .signal number =>
    "signal: " ++ toString number ++
      match signalName? number with
      | some name => " (" ++ name ++ ")"
      | none => ""

/-- What a run of a program left. A program that could not be started left nothing. -/
inductive Run where
  | notStarted (why : String)
  | ended (exit : Exit) (output errors : List UInt8)
  deriving DecidableEq, Repr

/-- The output of a program that ended well. -/
def output (job : Job) : Run → Outcome String
  | .notStarted why => .error ((Failure.external why).within ("spawn " ++ job.program))
  | .ended exit output errors =>
    if exit = .code 0 then .ok (Text.decodeLossy output)
    else
      .error (.message (job.program ++ " exited with " ++ exit.text ++ ": " ++ Text.trim (Text.decodeLossy errors)))

/-- The finished backups that the list program printed. -/
def listed (run : Run) : Outcome (List BackupRecord) := do Backup.readListing (← output .list run)

end Barman

end QuorumWarden
