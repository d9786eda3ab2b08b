import QuorumWarden.Text.Blank
import QuorumWarden.Text.Number

/-! Members of a replication cluster and the slots that hold back log for them. A
slot's name carries the number of its member. -/

namespace QuorumWarden

inductive Role where
  | primary
  | standby
  | unknown
  deriving DecidableEq, Repr

namespace Role

def text : Role → String
  | .primary => "primary"
  | .standby => "standby"
  | .unknown => "unknown"

/-- Blanks around the word and the case of its ASCII letters do not matter. -/
def ofText (raw : String) : Role :=
  match String.ofList ((Text.trimList raw.toList).map Char.toLower) with
  | "primary" => .primary
  | "standby" => .standby
  | _ => .unknown

end Role

/-- A row of the catalog. -/
structure Member where
  id : Int
  hostname : String
  region : String
  active : Bool
  role : Role
  deriving DecidableEq, Repr

namespace Member

def isPrimary (member : Member) : Bool := member.role = .primary

def isStandby (member : Member) : Bool := member.role = .standby

end Member

structure Slot where
  name : String
  active : Bool
  retainedBytes : Nat
  deriving DecidableEq, Repr

namespace Slot

/-- What a slot's name starts with, before the member's number. -/
def namePrefix : String := "repmgr_slot_"

def nameFor (id : Int) : String := namePrefix ++ toString id

/-- The text after the start that all managed slots share. -/
def suffix? (name : String) : Option String :=
  if namePrefix.toList.isPrefixOf name.toList then
    some (String.ofList (name.toList.drop namePrefix.length))
  else none

/-- The member that a slot of this name belongs to. -/
def memberOfName? (name : String) : Option Int := (suffix? name).bind Text.int32?

def member? (slot : Slot) : Option Int := memberOfName? slot.name

def retainedMegabytes (slot : Slot) : Nat := slot.retainedBytes / 1024 / 1024

end Slot

end QuorumWarden
