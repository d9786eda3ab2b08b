/-! JSON texts as trees. What nobody asks for is kept loosely: a number that is no
integer has no value, and a string may hold escapes that name no character. -/

namespace QuorumWarden.Json

/-- A string that cannot be read as characters is `none`; so is a key. -/
inductive Value where
  | null
  | bool (value : Bool)
  | integer (value : Int)
  | nonInteger
  | text (value : Option String)
  | array (items : List Value)
  | object (entries : List (Option String × Value))

/-- Reads a value of some type out of a tree. -/
abbrev Decoder (α : Type) := Value → Option α

def Decoder.bool : Decoder Bool
  | .bool value => some value
  | _ => none

def Decoder.int32 : Decoder Int
  | .integer value => if -2147483648 ≤ value ∧ value ≤ 2147483647 then some value else none
  | _ => none

def Decoder.text : Decoder String
  | .text value => value
  | _ => none

def Decoder.nullable {α : Type} (decoder : Decoder α) : Decoder (Option α)
  | .null => some none
  | value => (decoder value).map some

def Decoder.list {α : Type} (decoder : Decoder α) : Decoder (List α)
  | .array items => items.mapM decoder
  | _ => none

/-- The value of one field in a record: absent, or present exactly once. -/
inductive Field where
  | absent
  | present (value : Value)

/-- The named fields of a record, given as an object in any order with other keys
skipped, or as an array in this order that may stop early. No field occurs twice. -/
def fields? (names : List String) : Value → Option (List Field)
  | .object entries =>
    if entries.any (·.1.isNone) then none
    else names.mapM fun name =>
      match entries.filter (·.1 == some name) with
      | [] => some .absent
      | [(_, value)] => some (.present value)
      | _ => none
  | .array items =>
    if items.length ≤ names.length then
      some (items.map .present ++ List.replicate (names.length - items.length) .absent)
    else none
  | _ => none

def Field.required {α : Type} (decoder : Decoder α) : Field → Option α
  | .absent => none
  | .present value => decoder value

def Field.withDefault {α : Type} (default : α) (decoder : Decoder α) : Field → Option α
  | .absent => some default
  | .present value => decoder value

end QuorumWarden.Json
