/-! Lengths of time, exact to the nanosecond. -/

namespace QuorumWarden

/-- A length of time in nanoseconds. -/
structure Duration where
  nanos : Nat
  deriving DecidableEq, Repr

namespace Duration

def ofSeconds (seconds : Nat) (nanos : Nat := 0) : Duration := ⟨seconds * 1000000000 + nanos⟩

def ofMillis (millis : Nat) : Duration := ⟨millis * 1000000⟩

def seconds (d : Duration) : Nat := d.nanos / 1000000000

def subsecondNanos (d : Duration) : Nat := d.nanos % 1000000000

/-- Whole milliseconds, a started one counted: a timer never fires early. -/
def millis (d : Duration) : Nat := (d.nanos + 999999) / 1000000

/-- A number with so many digits after the point, zeros at the end left out. -/
def decimal (whole fraction digits : Nat) : String :=
  let padded := toString (Nat.pow 10 digits + fraction)
  let shown := ((padded.toList.drop 1).reverse.dropWhile (· = '0')).reverse
  if shown.isEmpty then toString whole else toString whole ++ "." ++ String.ofList shown

/-- In the largest unit that is not larger than the length itself. -/
def text (d : Duration) : String :=
  if 1000000000 ≤ d.nanos then decimal d.seconds d.subsecondNanos 9 ++ "s"
  else if 1000000 ≤ d.nanos then decimal (d.nanos / 1000000) (d.nanos % 1000000) 6 ++ "ms"
  else if 1000 ≤ d.nanos then decimal (d.nanos / 1000) (d.nanos % 1000) 3 ++ "µs"
  else toString d.nanos ++ "ns"

def isZero (d : Duration) : Bool := d.nanos == 0

@[simp] theorem millis_ofMillis (millis : Nat) : (ofMillis millis).millis = millis := by
  simp only [ofMillis, Duration.millis]; omega

end Duration

end QuorumWarden
