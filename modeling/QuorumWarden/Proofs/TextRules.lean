import Mathlib.Data.List.DropRight
import QuorumWarden.Text.Blank
import QuorumWarden.Text.Utf8

/-! What texts are once they have been taken apart. A trimmed text has nothing left to trim, and the bytes of a text
read as that text. -/

namespace QuorumWarden.Text

theorem trimStart_trimList (text : List Char) : trimStart (trimList text) = trimList text := by
  have first := List.dropWhile_eq_self_iff.mp (List.dropWhile_idempotent isBlank text)
  have inside : trimList text <+: trimStart text := List.rdropWhile_prefix isBlank _
  apply List.dropWhile_eq_self_iff.mpr
  intro nonempty
  rw [inside.getElem nonempty]
  exact first _

theorem trimList_trimList (text : List Char) : trimList (trimList text) = trimList text := by
  rw [trimList, trimStart_trimList]
  exact List.rdropWhile_idempotent isBlank _

theorem trim_trim (text : String) : trim (trim text) = trim text := by
  simp only [trim, String.toList_ofList, trimList_trimList]

theorem nonBlank?_trim (text : String) : nonBlank? (trim text) = nonBlank? text := by
  simp only [nonBlank?, trim_trim]

theorem decode?_encode (text : String) : decode? (encode text) = some text := by
  change String.fromUTF8? text.toUTF8 = some text
  exact dif_pos text.isValidUTF8

end QuorumWarden.Text
