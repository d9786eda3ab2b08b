import QuorumWarden.Files.Filing
import QuorumWarden.Time.Duration

/-! The pooler's list of databases: a file of one entry that sends every database to one
address. The file is replaced in one step before the pooler reads it again. -/

namespace QuorumWarden.Pooler

def listing (address : String) (port : Nat) : String :=
  "[databases]\n* = host=" ++ address ++ " port=" ++ toString port ++ "\n"

/-- Where the list is, and where it sends clients. -/
structure Settings where
  databasesFile : String
  upstreamPort : Nat
  adminPort : Nat
  adminUser : String
  adminPassword : String
  connectTimeout : Duration
  deriving DecidableEq, Repr

/-- Where the next list is put down first. -/
def Settings.temporaryFile (settings : Settings) : String :=
  Path.withExtension settings.databasesFile "ini.tmp"

/-- Replaces the list by one that names this address. -/
def writeListing (settings : Settings) (address : String) : ExceptT Failure (StateM FileTree) Unit := do
  let temporary := settings.temporaryFile
  (Path.parent? settings.databasesFile).forM fun parent =>
    Filing.during ("create pgbouncer config dir " ++ parent) (Filing.makeDirectories parent)
  Filing.during ("write pgbouncer databases temp " ++ temporary)
    (Filing.write temporary (Text.encode (listing address settings.upstreamPort)))
  Filing.during ("replace pgbouncer databases " ++ settings.databasesFile)
    (Filing.rename temporary settings.databasesFile)

/-- Replaces the list while the pooler cannot be reached: the list is in place, and reading it
again fails. -/
def redirect (settings : Settings) (why address : String) : ExceptT Failure (StateM FileTree) Unit := do
  writeListing settings address
  throw ((Failure.external why).within "connect to pgbouncer admin console")

end QuorumWarden.Pooler
