import QuorumWarden.Text.Number

/-! Addresses of peers in URLs. An IPv6 literal stands in brackets; every other host
stands as it is. -/

namespace QuorumWarden.Ipv6

def hexValue? (c : Char) : Option Nat :=
  if c.isDigit then some (c.toNat - '0'.toNat)
  else if 'a' ≤ c.toLower ∧ c.toLower ≤ 'f' then some (c.toLower.toNat - 'a'.toNat + 10)
  else none

/-- One group: up to four hexadecimal digits. Gives what is left of the text. -/
def group? (text : List Char) : Option (List Char) :=
  let digits := text.takeWhile fun c => (hexValue? c).isSome
  if 0 < digits.length ∧ digits.length ≤ 4 then some (text.drop digits.length) else none

/-- A number up to 255 without leading zeros. -/
def byte? (text : List Char) : Option (List Char) :=
  let digits := text.takeWhile Char.isDigit
  let leadingZero := digits.head? == some '0' && digits.length != 1
  if leadingZero || !(Text.digits? digits).any (· ≤ 255) then none else some (text.drop digits.length)

/-- Four bytes with dots between them, as the last two groups may be written. -/
def dotted? (text : List Char) : Option (List Char) := do
  let '.' :: text ← byte? text | none
  let '.' :: text ← byte? text | none
  let '.' :: text ← byte? text | none
  byte? text

/-- Reads up to `room` further groups, all but the first of the text behind a colon. Gives
how many groups are still missing and what is left, and whether dotted bytes came last. -/
def groups (first : Bool) : (room : Nat) → List Char → Nat × Bool × List Char
  | 0, text => (0, false, text)
  | room + 1, text =>
    let inside := if first then some text else
      match text with
      | ':' :: rest => some rest
      | _ => none
    match inside with
    | none => (room + 1, false, text)
    | some rest =>
      match if 0 < room then dotted? rest else none with
      | some rest => (room - 1, true, rest)
      | none =>
        match group? rest with
        | some rest => groups false room rest
        | none => (room + 1, false, text)

/-- Eight groups, or fewer with one double colon in the place of at least one group. -/
def isLiteral (text : List Char) : Bool :=
  match groups true 8 text with
  | (0, _, rest) => rest.isEmpty
  | (_, true, _) => false
  | (missing, false, ':' :: ':' :: rest) => (groups true (missing - 1) rest).2.2.isEmpty
  | _ => false

end QuorumWarden.Ipv6

namespace QuorumWarden.Peer

def url (host : String) (port : Nat) (path : String) : String :=
  let shown := if Ipv6.isLiteral host.toList then "[" ++ host ++ "]" else host
  "http://" ++ shown ++ ":" ++ toString port ++ path

end QuorumWarden.Peer
