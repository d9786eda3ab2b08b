/-! Splitting a text at a character, and joining the parts again. -/

namespace QuorumWarden.Text

/-- The stretches between the separators, one more than there are separators. -/
def splitList (separator : Char) : List Char → List (List Char)
  | [] => [[]]
  | c :: rest =>
    if c = separator then [] :: splitList separator rest
    else
      match splitList separator rest with
      | [] => [[c]]
      | piece :: pieces => (c :: piece) :: pieces

def split (separator : Char) (text : String) : List String :=
  (splitList separator text.toList).map String.ofList

theorem splitList_ne_nil (separator : Char) (text : List Char) : splitList separator text ≠ [] := by
  cases text with
  | nil => simp [splitList]
  | cons c rest =>
    simp only [splitList]
    split
    · simp
    · split <;> simp

theorem intercalate_splitList (separator : Char) (text : List Char) :
    [separator].intercalate (splitList separator text) = text := by
  induction text with
  | nil => rfl
  | cons c rest ih =>
    have pieces := splitList_ne_nil separator rest
    cases held : splitList separator rest with
    | nil => exact absurd held pieces
    | cons piece others =>
      rw [held] at ih
      by_cases here : c = separator
      · subst here
        simp only [splitList, held, if_true]
        simpa [List.intercalate, List.intersperse] using ih
      · simp only [splitList, held, if_neg here]
        cases others with
        | nil => simpa [List.intercalate] using ih
        | cons next more => simpa [List.intercalate] using ih

end QuorumWarden.Text
