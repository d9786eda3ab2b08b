import QuorumWarden.Failure
import QuorumWarden.Time.Duration

/-! Opening a session on a database server: what is sent first, and what may come back. -/

namespace QuorumWarden

/-- How sessions are opened on members. -/
structure SessionSettings where
  port : Nat
  user : String
  password : String
  database : String
  connectTimeout : Duration
  statementTimeout : Duration
  deriving DecidableEq, Repr

/-- How a server receives a client. -/
inductive Greeting where
  | accepts
  | asksPassword
  | refuses (why : String)
  | keepsSilent
  deriving DecidableEq, Repr

namespace SessionSettings

/-- The parameters of a session. The server itself bounds the time of every statement. -/
def startup (settings : SessionSettings) : List (String × String) :=
  [("client_encoding", "UTF8"), ("user", settings.user), ("database", settings.database),
    ("options", "-c statement_timeout=" ++ toString (settings.statementTimeout.nanos / 1000000)),
    ("application_name", "holo-guard")]

def address (settings : SessionSettings) (host : String) : String := host ++ ":" ++ toString settings.port

/-- Whether the session comes about. An empty password is no password. -/
def opened (settings : SessionSettings) (host : String) : Greeting → Outcome Unit
  | .accepts => .ok ()
  | .asksPassword =>
    if settings.password.isEmpty then
      .error ((Failure.external "password missing").within ("connect to " ++ settings.address host))
    else .ok ()
  | .refuses why => .error ((Failure.external why).within ("connect to " ++ settings.address host))
  | .keepsSilent =>
    .error (.message ("connect to " ++ settings.address host ++ " timed out after " ++ settings.connectTimeout.text))

end SessionSettings

end QuorumWarden
