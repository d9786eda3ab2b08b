import QuorumWarden.Port
import QuorumWarden.Text.Blank

/-! Reading the rows that a database server returns. A cell of another type than its
column should have, or a null where none may be, is a failure of that column. -/

namespace QuorumWarden.Postgres

inductive Cell where
  | null
  | int4 (value : Int)
  | int8 (value : Int)
  | text (value : String)
  | bool (value : Bool)
  deriving DecidableEq, Repr

abbrev Row := List Cell

def Cell.int4? : Cell → Option Int
  | .int4 value => some value
  | _ => none

def Cell.int8? : Cell → Option Int
  | .int8 value => some value
  | _ => none

def Cell.text? : Cell → Option String
  | .text value => some value
  | _ => none

def Cell.bool? : Cell → Option Bool
  | .bool value => some value
  | _ => none

/-- A text that may be missing. -/
def Cell.textOrNull? : Cell → Option String
  | .null => some ""
  | cell => cell.text?

def column {α : Type} (row : Row) (index : Nat) (read : Cell → Option α) (what : String) : Outcome α :=
  match row[index]?.bind read with
  | some value => .ok value
  | none => .error ((Failure.external "unreadable column").within ("decode " ++ what))

def member (row : Row) : Outcome Member := do
  let role ← column row 4 Cell.text? "member type"
  return {
    id := ← column row 0 Cell.int4? "member id"
    hostname := ← column row 1 Cell.text? "member name"
    region := ← column row 2 Cell.textOrNull? "member location"
    active := ← column row 3 Cell.bool? "member active flag"
    role := Role.ofText role }

/-- A negative amount of retained log counts as none. -/
def slot (row : Row) : Outcome Slot := do
  let retained ← column row 2 Cell.int8? "retained wal"
  return {
    name := ← column row 0 Cell.text? "slot name"
    active := ← column row 1 Cell.bool? "slot active flag"
    retainedBytes := retained.toNat }

def database (row : Row) : Outcome String := column row 0 Cell.text? "database name"

/-- The spellings of a flag that is on. -/
def isOn (value : String) : Bool :=
  ["on", "true", "yes", "1", "t"].contains (String.ofList ((Text.trimList value.toList).map Char.toLower))

def readonlyKey : List Char := "default_transaction_read_only=".toList

/-- The flag after one more setting of a database. -/
def applySetting (flag : Bool) (setting : String) : Bool :=
  if readonlyKey.isPrefixOf setting.toList then isOn (String.ofList (setting.toList.drop readonlyKey.length))
  else flag

/-- The last setting of the flag counts. -/
def readonlyFlag (rows : List Row) : Outcome Bool :=
  rows.foldlM (fun flag row => return applySetting flag (← column row 0 Cell.text? "database setting")) false

/-- The reply to a call on a session, from the rows of its statement. -/
def reply? (rows : List Row) : (call : Call) → Option call.Reply
  | .listMembers _ => some (rows.mapM member)
  | .primaryMember _ => some (rows.head?.mapM member)
  | .unregister _ _ => some (.ok ())
  | .slots _ => some (rows.mapM slot)
  | .dropSlot _ _ => some (.ok ())
  | .databases _ => some (rows.mapM database)
  | .setReadonly _ _ _ => some (.ok ())
  | .readonly _ _ => some (readonlyFlag rows)
  | _ => none

end QuorumWarden.Postgres
