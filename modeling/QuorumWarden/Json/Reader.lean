import QuorumWarden.Json.Value
import QuorumWarden.Text.Number

/-! Reading JSON. Every reader takes the text from its front and returns what is left
of it; a whole text is one value with spaces around it. -/

namespace QuorumWarden.Json

def isSpace (c : Char) : Bool := c == ' ' || c == '\n' || c == '\t' || c == '\r'

def skipSpaces (text : List Char) : List Char := text.dropWhile isSpace

def hexValue? (c : Char) : Option Nat :=
  if c.isDigit then some (c.toNat - '0'.toNat)
  else if 'a' ≤ c ∧ c ≤ 'f' then some (c.toNat - 'a'.toNat + 10)
  else if 'A' ≤ c ∧ c ≤ 'F' then some (c.toNat - 'A'.toNat + 10)
  else none

def hexFour? : List Char → Option (Nat × List Char)
  | a :: b :: c :: d :: rest => do
    some (((← hexValue? a) * 4096 + (← hexValue? b) * 256 + (← hexValue? c) * 16 + (← hexValue? d)), rest)
  | _ => none

/-- One element of a string: a character, or half of a surrogate pair. -/
inductive Unit16 where
  | character (c : Char)
  | high (code : Nat)
  | low (code : Nat)

def unit16 (code : Nat) : Unit16 :=
  if 0xd800 ≤ code ∧ code < 0xdc00 then .high code
  else if 0xdc00 ≤ code ∧ code < 0xe000 then .low code
  else .character (Char.ofNat code)

def escape? : Char → Option Char
  | '"' => some '"'
  | '\\' => some '\\'
  | '/' => some '/'
  | 'b' => some '\x08'
  | 'f' => some '\x0c'
  | 'n' => some '\n'
  | 'r' => some '\r'
  | 't' => some '\t'
  | _ => none

/-- The elements up to the closing quote. Control characters must be escaped. -/
def unitsFrom : Nat → List Char → Option (List Unit16 × List Char)
  | 0, _ => none
  | _ + 1, [] => none
  | _ + 1, '"' :: rest => some ([], rest)
  | fuel + 1, '\\' :: 'u' :: rest => do
    let (code, rest) ← hexFour? rest
    let (units, rest) ← unitsFrom fuel rest
    some (unit16 code :: units, rest)
  | fuel + 1, '\\' :: c :: rest => do
    let c ← escape? c
    let (units, rest) ← unitsFrom fuel rest
    some (.character c :: units, rest)
  | fuel + 1, c :: rest => do
    if c == '\\' || c.toNat < 0x20 then none
    let (units, rest) ← unitsFrom fuel rest
    some (.character c :: units, rest)

/-- The characters that the elements stand for: a high half is followed by a low one. -/
def characters? : List Unit16 → Option (List Char)
  | [] => some []
  | .character c :: rest => (characters? rest).map (c :: ·)
  | .high high :: .low low :: rest =>
    (characters? rest).map (Char.ofNat (0x10000 + (high - 0xd800) * 1024 + (low - 0xdc00)) :: ·)
  | _ => none

/-- The rest of a string whose opening quote is gone. -/
def string? (text : List Char) : Option (Option String × List Char) :=
  (unitsFrom (text.length + 1) text).map fun (units, rest) => ((characters? units).map String.ofList, rest)

/-- At least one digit. -/
def someDigits? (text : List Char) : Option (List Char × List Char) :=
  let digits := text.takeWhile Char.isDigit
  if digits.isEmpty then none else some (digits, text.drop digits.length)

/-- The part after the point, if there is a point. -/
def fraction? : List Char → Option (Bool × List Char)
  | '.' :: rest => (someDigits? rest).map fun (_, rest) => (true, rest)
  | text => some (false, text)

def exponent? (text : List Char) : Option (Bool × List Char) :=
  match text with
  | c :: rest =>
    if c == 'e' || c == 'E' then
      let digits := match rest with
        | sign :: after => if sign == '+' || sign == '-' then after else rest
        | [] => rest
      (someDigits? digits).map fun (_, rest) => (true, rest)
    else some (false, text)
  | [] => some (false, text)

/-- A number without its sign. Zero has no further digits, and minus zero is no integer. -/
def unsigned? (negative : Bool) (text : List Char) : Option (Value × List Char) := do
  let (digits, rest) ← someDigits? text
  if digits.head? == some '0' && digits.length != 1 then none
  let (hasFraction, rest) ← fraction? rest
  let (hasExponent, rest) ← exponent? rest
  let value := (Text.digits? digits).getD 0
  if hasFraction || hasExponent || (negative && value == 0) then some (.nonInteger, rest)
  else some (.integer (if negative then -(value : Int) else value), rest)

def literal? (word : List Char) (value : Value) (text : List Char) : Option (Value × List Char) :=
  if word.isPrefixOf text then some (value, text.drop word.length) else none

mutual
/-- One value, after any spaces. -/
def value? : Nat → List Char → Option (Value × List Char)
  | 0, _ => none
  | fuel + 1, text =>
    match skipSpaces text with
    | '\x7b' :: rest =>
      match skipSpaces rest with
      | '\x7d' :: rest => some (.object [], rest)
      | rest => (entries? fuel rest).map fun (entries, rest) => (.object entries, rest)
    | '[' :: rest =>
      match skipSpaces rest with
      | ']' :: rest => some (.array [], rest)
      | rest => (items? fuel rest).map fun (items, rest) => (.array items, rest)
    | '"' :: rest => (string? rest).map fun (text, rest) => (.text text, rest)
    | '-' :: rest => unsigned? true rest
    | 'n' :: rest => literal? ['u', 'l', 'l'] .null rest
    | 't' :: rest => literal? ['r', 'u', 'e'] (.bool true) rest
    | 'f' :: rest => literal? ['a', 'l', 's', 'e'] (.bool false) rest
    | text => unsigned? false text

/-- The items of an array up to its closing bracket. -/
def items? : Nat → List Char → Option (List Value × List Char)
  | 0, _ => none
  | fuel + 1, text => do
    let (item, rest) ← value? fuel text
    match skipSpaces rest with
    | ']' :: rest => some ([item], rest)
    | ',' :: rest => do
      let (items, rest) ← items? fuel rest
      some (item :: items, rest)
    | _ => none

/-- The entries of an object up to its closing brace. -/
def entries? : Nat → List Char → Option (List (Option String × Value) × List Char)
  | 0, _ => none
  | fuel + 1, text =>
    match skipSpaces text with
    | '"' :: rest => do
      let (key, rest) ← string? rest
      match skipSpaces rest with
      | ':' :: rest => do
        let (value, rest) ← value? fuel rest
        match skipSpaces rest with
        | '\x7d' :: rest => some ([(key, value)], rest)
        | ',' :: rest => do
          let (entries, rest) ← entries? fuel rest
          some ((key, value) :: entries, rest)
        | _ => none
      | _ => none
    | _ => none
end

/-- The value that the whole text is. Every level and every item takes a character, so
twice their number is fuel enough. -/
def read? (text : String) : Option Value :=
  let characters := text.toList
  match value? (2 * characters.length + 2) characters with
  | some (value, rest) => if (skipSpaces rest).isEmpty then some value else none
  | none => none

def decode? {α : Type} (decoder : Decoder α) (text : String) : Option α := (read? text).bind decoder

end QuorumWarden.Json
