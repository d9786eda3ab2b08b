/-! Bytes read as UTF-8 with replacement characters: an ill-formed stretch becomes one
U+FFFD for each longest start of a well-formed sequence in it. -/

namespace QuorumWarden.Text

/-- What the first bytes of a text are: a character, or so many bytes of nothing. -/
inductive Decoded where
  | character (c : Char) (rest : List UInt8)
  | illFormed (rest : List UInt8)

/-- Reads so many more continuation bytes, the first of them within `low` to `high`. -/
def continuation : Nat → (value low high : Nat) → List UInt8 → Decoded
  | 0, value, _, _, rest => .character (Char.ofNat value) rest
  | _ + 1, _, _, _, [] => .illFormed []
  | more + 1, value, low, high, byte :: rest =>
    if low ≤ byte.toNat ∧ byte.toNat ≤ high then
      continuation more (value * 64 + (byte.toNat - 0x80)) 0x80 0xbf rest
    else .illFormed (byte :: rest)

def decodeOne (lead : UInt8) (rest : List UInt8) : Decoded :=
  let code := lead.toNat
  if code < 0x80 then .character (Char.ofNat code) rest
  else if code < 0xc2 then .illFormed rest
  else if code < 0xe0 then continuation 1 (code - 0xc0) 0x80 0xbf rest
  else if code == 0xe0 then continuation 2 0 0xa0 0xbf rest
  else if code == 0xed then continuation 2 0xd 0x80 0x9f rest
  else if code < 0xf0 then continuation 2 (code - 0xe0) 0x80 0xbf rest
  else if code == 0xf0 then continuation 3 0 0x90 0xbf rest
  else if code < 0xf4 then continuation 3 (code - 0xf0) 0x80 0xbf rest
  else if code == 0xf4 then continuation 3 4 0x80 0x8f rest
  else .illFormed rest

def lossyFrom : Nat → List UInt8 → List Char
  | 0, _ => []
  | _ + 1, [] => []
  | fuel + 1, lead :: rest =>
    match decodeOne lead rest with
    | .character c after => c :: lossyFrom fuel after
    | .illFormed after => '\ufffd' :: lossyFrom fuel after

/-- The text of any bytes. Each step takes a byte, so their number is fuel enough. -/
def decodeLossy (bytes : List UInt8) : String := String.ofList (lossyFrom bytes.length bytes)

/-- The text of well-formed bytes. -/
def decode? (bytes : List UInt8) : Option String := String.fromUTF8? ⟨bytes.toArray⟩

def encode (text : String) : List UInt8 := text.toUTF8.data.toList

end QuorumWarden.Text
