/-! Decimal integers within bounds. Zeros in front are allowed and blanks are not; a
sign is allowed where the reader says so. -/

namespace QuorumWarden.Text

def digit? (c : Char) : Option Nat := if c.isDigit then some (c.toNat - '0'.toNat) else none

/-- The value of a run of digits read from the left; `none` at any other character. -/
def digitsFrom (value : Nat) : List Char → Option Nat
  | [] => some value
  | c :: rest => (digit? c).bind fun d => digitsFrom (10 * value + d) rest

/-- At least one digit, and digits only. -/
def digits? : List Char → Option Nat
  | [] => none
  | text => digitsFrom 0 text

def natural? : List Char → Option Nat
  | '+' :: rest => digits? rest
  | text => digits? text

def integer? : List Char → Option Int
  | '-' :: rest => (digits? rest).map fun value => -(value : Int)
  | text => (natural? text).map Int.ofNat

/-- A natural number up to `high`, with an optional plus sign. -/
def naturalUpTo? (high : Nat) (text : String) : Option Nat :=
  (natural? text.toList).filter (· ≤ high)

/-- An integer from `low` to `high`, with an optional sign. -/
def integerWithin? (low high : Int) (text : String) : Option Int :=
  (integer? text.toList).filter fun value => decide (low ≤ value ∧ value ≤ high)

def int32? (text : String) : Option Int := integerWithin? (-2147483648) 2147483647 text

end QuorumWarden.Text
