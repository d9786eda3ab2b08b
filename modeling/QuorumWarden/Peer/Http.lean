import QuorumWarden.Failure
import QuorumWarden.Json.Reader
import QuorumWarden.Peer.Address

/-! The peers' admin interface: what is asked of a peer, and how its answers are read. -/

namespace QuorumWarden.Peer

inductive Question where
  | state
  | set (enabled : Bool)
  deriving DecidableEq, Repr

namespace Question

def method : Question → String
  | .state => "GET"
  | .set _ => "POST"

def path : Question → String
  | .state => "/admin/readonly/state"
  | .set true => "/commands/admin/readonly/enable"
  | .set false => "/commands/admin/readonly/disable"

/-- What the question is called in failures. -/
def title (question : Question) (host : String) (port : Nat) : String :=
  question.method ++ " " ++ url host port question.path

end Question

/-- What came back from a peer, if anything did. -/
inductive Response where
  | none (why : String)
  | answer (status : Nat) (body : String)
  deriving DecidableEq, Repr

/-- The reason phrases that go with status codes. -/
def reason? : Nat → Option String
  | 100 => some "Continue"
  | 101 => some "Switching Protocols"
  | 102 => some "Processing"
  | 103 => some "Early Hints"
  | 200 => some "OK"
  | 201 => some "Created"
  | 202 => some "Accepted"
  | 203 => some "Non Authoritative Information"
  | 204 => some "No Content"
  | 205 => some "Reset Content"
  | 206 => some "Partial Content"
  | 207 => some "Multi-Status"
  | 208 => some "Already Reported"
  | 226 => some "IM Used"
  | 300 => some "Multiple Choices"
  | 301 => some "Moved Permanently"
  | 302 => some "Found"
  | 303 => some "See Other"
  | 304 => some "Not Modified"
  | 305 => some "Use Proxy"
  | 307 => some "Temporary Redirect"
  | 308 => some "Permanent Redirect"
  | 400 => some "Bad Request"
  | 401 => some "Unauthorized"
  | 402 => some "Payment Required"
  | 403 => some "Forbidden"
  | 404 => some "Not Found"
  | 405 => some "Method Not Allowed"
  | 406 => some "Not Acceptable"
  | 407 => some "Proxy Authentication Required"
  | 408 => some "Request Timeout"
  | 409 => some "Conflict"
  | 410 => some "Gone"
  | 411 => some "Length Required"
  | 412 => some "Precondition Failed"
  | 413 => some "Payload Too Large"
  | 414 => some "URI Too Long"
  | 415 => some "Unsupported Media Type"
  | 416 => some "Range Not Satisfiable"
  | 417 => some "Expectation Failed"
  | 418 => some "I'm a teapot"
  | 421 => some "Misdirected Request"
  | 422 => some "Unprocessable Entity"
  | 423 => some "Locked"
  | 424 => some "Failed Dependency"
  | 425 => some "Too Early"
  | 426 => some "Upgrade Required"
  | 428 => some "Precondition Required"
  | 429 => some "Too Many Requests"
  | 431 => some "Request Header Fields Too Large"
  | 451 => some "Unavailable For Legal Reasons"
  | 500 => some "Internal Server Error"
  | 501 => some "Not Implemented"
  | 502 => some "Bad Gateway"
  | 503 => some "Service Unavailable"
  | 504 => some "Gateway Timeout"
  | 505 => some "HTTP Version Not Supported"
  | 506 => some "Variant Also Negotiates"
  | 507 => some "Insufficient Storage"
  | 508 => some "Loop Detected"
  | 510 => some "Not Extended"
  | 511 => some "Network Authentication Required"
  | _ => none

def statusText (status : Nat) : String :=
  toString status ++ " " ++ (reason? status).getD "<unknown status code>"

/-- The flag in the body of an answer: a record with the one field `Result`. -/
def flagDecoder : Json.Decoder Bool := fun value => do
  match ← Json.fields? ["Result"] value with
  | [flag] => flag.required .bool
  | _ => none

/-- The body of a successful answer. -/
def body (question : Question) (host : String) (port : Nat) : Response → Outcome String
  | .none why => .error ((Failure.external why).within (question.title host port))
  | .answer status body =>
    if 200 ≤ status ∧ status < 300 then .ok body
    else .error (.message (question.title host port ++ " returned status " ++ statusText status))

/-- Reads the answer to `state`. -/
def readFlag (host : String) (port : Nat) (response : Response) : Outcome Bool := do
  let body ← body .state host port response
  match Json.decode? flagDecoder body with
  | some flag => return flag
  | none =>
    throw ((Failure.external "unreadable body").within
      ("decode readonly state from " ++ url host port Question.state.path))

/-- Reads the answer to `set`; only its status counts. -/
def readDone (enabled : Bool) (host : String) (port : Nat) (response : Response) : Outcome Unit := do
  let _ ← body (.set enabled) host port response

end QuorumWarden.Peer
