import QuorumWarden.Text.Blank
import QuorumWarden.Text.Number
import QuorumWarden.Time.Timestamp

/-! Times written as `Tue Jun 27 21:40:13 2023`. The reader takes any blanks between
the fields, none included, and refuses a weekday that the date does not have. -/

namespace QuorumWarden.Ctime

def weekdays : List String := ["sun", "mon", "tue", "wed", "thu", "fri", "sat"]

def months : List String :=
  ["jan", "feb", "mar", "apr", "may", "jun", "jul", "aug", "sep", "oct", "nov", "dec"]

/-- The index of the first name that the text starts with, in any case, and the rest. -/
def name? (names : List String) (text : List Char) : Option (Nat × List Char) :=
  let head := String.ofList ((text.take 3).map Char.toLower)
  (names.findIdx? (· == head)).map fun index => (index, text.drop 3)

/-- Up to `width` digits, at least one, after any blanks. -/
def number? (width : Nat) (text : List Char) : Option (Nat × List Char) :=
  let text := Text.trimStart text
  let digits := (text.take width).takeWhile Char.isDigit
  (Text.digits? digits).map fun value => (value, text.drop digits.length)

/-- A number from `low` to `high` of at most two digits. -/
def field? (low high : Nat) (text : List Char) : Option (Nat × List Char) :=
  (number? 2 text).filter fun (value, _) => decide (low ≤ value ∧ value ≤ high)

/-- Four digits at most, or a sign and any number of them. -/
def year? (text : List Char) : Option (Int × List Char) :=
  match Text.trimStart text with
  | '-' :: rest => if startsWithDigit rest then (number? rest.length rest).map fun (y, r) => (-(y : Int), r) else none
  | '+' :: rest => if startsWithDigit rest then (number? rest.length rest).map fun (y, r) => ((y : Int), r) else none
  | text => (number? 4 text).map fun (y, r) => ((y : Int), r)
where
  startsWithDigit (text : List Char) : Bool := (text.head?.map Char.isDigit).getD false

def colon? : List Char → Option (List Char)
  | ':' :: rest => some rest
  | _ => none

/-- A second of 60 is the leap second of its minute, whichever minute that is. -/
def timestamp (day : Int) (hour minute second : Nat) : Timestamp :=
  let seconds := (fun s : Nat => day * 86400 + (hour * 3600 + minute * 60 + s : Nat))
  if second == 60 then ⟨seconds 59, 1000000000⟩ else ⟨seconds second, 0⟩

/-- Reads the fields in order; blanks may stand before each of them. -/
def readFields? (text : List Char) : Option Timestamp := do
  let (weekday, text) ← name? weekdays text
  let (month, text) ← name? months (Text.trimStart text)
  let (day, text) ← field? 1 31 text
  let (hour, text) ← field? 0 23 text
  let (minute, text) ← field? 0 59 (← colon? text)
  let (second, text) ← field? 0 60 (← colon? text)
  let (year, text) ← year? text
  let date : Calendar.Date := ⟨year, month + 1, day⟩
  if text.isEmpty ∧ date.isValid ∧ Calendar.weekday date.number = weekday then
    some (timestamp date.number hour minute second)
  else none

/-- The time that the text names once its blanks are made single spaces. -/
def read? (text : String) : Option Timestamp := readFields? (Text.singleSpaced text.toList)

end QuorumWarden.Ctime
