/-! Blank characters as Unicode's White_Space property has them, and the two uses of
them: trimming a text and splitting it into words. -/

namespace QuorumWarden.Text

/-- The property White_Space: 25 characters in ten ranges. -/
def isBlank (c : Char) : Bool :=
  let code := c.toNat
  (0x09 ≤ code && code ≤ 0x0d) || code == 0x20 || code == 0x85 || code == 0xa0 || code == 0x1680 ||
    (0x2000 ≤ code && code ≤ 0x200a) || code == 0x2028 || code == 0x2029 || code == 0x202f ||
    code == 0x205f || code == 0x3000

def trimStart (text : List Char) : List Char := text.dropWhile isBlank

def trimList (text : List Char) : List Char := (trimStart (trimStart text).reverse).reverse

/-- The text without blanks at either end. -/
def trim (text : String) : String := String.ofList (trimList text.toList)

/-- The trimmed text, unless nothing is left of it. -/
def nonBlank? (text : String) : Option String :=
  let trimmed := trim text
  if trimmed.isEmpty then none else some trimmed

/-- The maximal runs of characters that are not blank; `word` is the run in progress. -/
def wordsFrom (word : List Char) : List Char → List (List Char)
  | [] => if word.isEmpty then [] else [word.reverse]
  | c :: rest =>
    if isBlank c then
      if word.isEmpty then wordsFrom [] rest else word.reverse :: wordsFrom [] rest
    else wordsFrom (c :: word) rest

def words (text : List Char) : List (List Char) := wordsFrom [] text

/-- The words of the text with one space between neighbours. -/
def singleSpaced (text : List Char) : List Char := [' '].intercalate (words text)

end QuorumWarden.Text
