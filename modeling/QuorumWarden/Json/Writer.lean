/-! Writing JSON without spaces. Only quotes, backslashes and control characters are
escaped; all other characters stand for themselves. -/

namespace QuorumWarden.Json

def hexDigit (n : Nat) : Char := Char.ofNat (if n < 10 then '0'.toNat + n else 'a'.toNat + (n - 10))

def escaped (c : Char) : List Char :=
  match c with
  | '"' => ['\\', '"']
  | '\\' => ['\\', '\\']
  | '\x08' => ['\\', 'b']
  | '\x0c' => ['\\', 'f']
  | '\n' => ['\\', 'n']
  | '\r' => ['\\', 'r']
  | '\t' => ['\\', 't']
  | c =>
    if c.toNat < 0x20 then ['\\', 'u', '0', '0', hexDigit (c.toNat / 16), hexDigit (c.toNat % 16)] else [c]

/-- The text between quotes. -/
def quoted (text : String) : String := "\"" ++ String.ofList (text.toList.flatMap escaped) ++ "\""

def field (name value : String) : String := quoted name ++ ":" ++ value

def object (fields : List String) : String := "\x7b" ++ ",".intercalate fields ++ "\x7d"

def bool (value : Bool) : String := if value then "true" else "false"

end QuorumWarden.Json
