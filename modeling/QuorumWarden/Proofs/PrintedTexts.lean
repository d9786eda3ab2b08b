import Mathlib
import QuorumWarden.Text.Blank
import QuorumWarden.Text.Number

/-! Texts that are put together from words and digits. Splitting them finds the words again, whatever blanks are between
them, and reading the digits gives the number. -/

namespace QuorumWarden.Text

def Blank (gap : List Char) : Prop := ∀ c ∈ gap, isBlank c = true

/-- A word has no blank in it. -/
structure Solid (word : List Char) : Prop where
  nonempty : word ≠ []
  unbroken : ∀ c ∈ word, isBlank c = false

/-- These words in this order, with any blanks around them and at least one between neighbours. -/
inductive Spaced : List (List Char) → List Char → Prop where
  | blank {gap} (blank : Blank gap) : Spaced [] gap
  | word {gap word words rest} (blank : Blank gap) (solid : Solid word) (apart : ∀ c ∈ rest.head?, isBlank c = true)
      (more : Spaced words rest) : Spaced (word :: words) (gap ++ (word ++ rest))

theorem wordsFrom_blank {gap : List Char} (blank : Blank gap) (rest : List Char) :
    wordsFrom [] (gap ++ rest) = wordsFrom [] rest := by
  induction gap with
  | nil => rfl
  | cons c gap ih =>
    obtain ⟨here, blank⟩ := List.forall_mem_cons.mp blank
    rw [List.cons_append, wordsFrom, if_pos here, if_pos List.isEmpty_nil]
    exact ih blank

theorem wordsFrom_unbroken {word : List Char} (unbroken : ∀ c ∈ word, isBlank c = false) (begun rest : List Char) :
    wordsFrom begun (word ++ rest) = wordsFrom (word.reverse ++ begun) rest := by
  induction word generalizing begun with
  | nil => rfl
  | cons c word ih =>
    obtain ⟨here, unbroken⟩ := List.forall_mem_cons.mp unbroken
    rw [List.cons_append, wordsFrom, if_neg (Bool.eq_false_iff.mp here), ih unbroken, List.reverse_cons, List.append_assoc]
    rfl

/-- A word that has begun ends at a blank, or with the text. -/
theorem wordsFrom_apart {begun rest : List Char} (nonempty : begun ≠ []) (apart : ∀ c ∈ rest.head?, isBlank c = true) :
    wordsFrom begun rest = begun.reverse :: wordsFrom [] rest := by
  have begun : begun.isEmpty = false := by simpa using nonempty
  cases rest with
  | nil => simp [wordsFrom, begun]
  | cons c rest =>
    have here : isBlank c = true := apart c rfl
    simp [wordsFrom, begun, here]

theorem words_of_spaced {parts : List (List Char)} {text : List Char} (spaced : Spaced parts text) : words text = parts := by
  induction spaced with
  | @blank gap blank => simpa [words, wordsFrom] using wordsFrom_blank blank []
  | @word gap word parts rest blank solid apart _ ih =>
    have begun : word.reverse ++ [] ≠ [] := by simpa using solid.nonempty
    rw [words, wordsFrom_blank blank, wordsFrom_unbroken solid.unbroken, wordsFrom_apart begun apart]
    simpa [words] using ih

theorem Spaced.begin {word rest : List Char} {parts : List (List Char)} (solid : Solid word)
    (apart : ∀ c ∈ rest.head?, isBlank c = true) (more : Spaced parts rest) : Spaced (word :: parts) (word ++ rest) :=
  @Spaced.word [] word parts rest nofun solid apart more

theorem Spaced.cons_blank {parts : List (List Char)} {c : Char} {text : List Char} (here : isBlank c = true)
    (spaced : Spaced parts text) : Spaced parts (c :: text) := by
  cases spaced with
  | blank blank => exact .blank (List.forall_mem_cons.mpr ⟨here, blank⟩)
  | @word gap _ _ _ blank solid apart more =>
    exact @Spaced.word (c :: gap) _ _ _ (List.forall_mem_cons.mpr ⟨here, blank⟩) solid apart more

theorem solid_reverse {begun : List Char} (nonempty : begun ≠ []) (unbroken : ∀ c ∈ begun, isBlank c = false) :
    Solid begun.reverse := ⟨by simpa using nonempty, by simpa using unbroken⟩

theorem spaced_wordsFrom {begun : List Char} (unbroken : ∀ c ∈ begun, isBlank c = false) (text : List Char) :
    Spaced (wordsFrom begun text) (begun.reverse ++ text) := by
  induction text generalizing begun with
  | nil =>
    by_cases none : begun = []
    · rw [none]
      exact .blank nofun
    · have last : Spaced [begun.reverse] (begun.reverse ++ []) :=
        .begin (solid_reverse none unbroken) nofun (.blank nofun)
      simpa [wordsFrom, none] using last
  | cons c text ih =>
    cases here : isBlank c with
    | false =>
      have longer : ∀ d ∈ c :: begun, isBlank d = false := List.forall_mem_cons.mpr ⟨here, unbroken⟩
      simpa [wordsFrom, here] using ih longer
    | true =>
      have rest : Spaced (wordsFrom [] text) (c :: text) := .cons_blank here (@ih [] nofun)
      by_cases none : begun = []
      · simpa [wordsFrom, here, none] using rest
      · have apart : ∀ d ∈ (c :: text).head?, isBlank d = true := by simpa using here
        simpa [wordsFrom, here, none] using Spaced.begin (solid_reverse none unbroken) apart rest

/-- Every text is its words with blanks around them, and of no other words. -/
theorem spaced_iff {parts : List (List Char)} {text : List Char} : Spaced parts text ↔ words text = parts := by
  refine ⟨words_of_spaced, ?_⟩
  rintro rfl
  exact @spaced_wordsFrom [] nofun text

theorem isBlank_of_visible {c : Char} (low : 33 ≤ c.toNat) (high : c.toNat ≤ 126) : isBlank c = false := by
  simp only [isBlank, Bool.or_eq_false_iff, Bool.and_eq_false_iff, decide_eq_false_iff_not, beq_eq_false_iff_ne]
  omega

theorem solid_of_isAlpha {word : List Char} (nonempty : word ≠ []) (letters : word.all Char.isAlpha = true) :
    Solid word := by
  refine ⟨nonempty, fun c member => ?_⟩
  have letter := List.all_eq_true.mp letters c member
  simp only [Char.isAlpha, Char.isUpper, Char.isLower, Bool.or_eq_true, Bool.and_eq_true, decide_eq_true_eq] at letter
  rcases letter with ⟨low, high⟩ | ⟨low, high⟩
  · have low : 65 ≤ c.toNat := low
    have high : c.toNat ≤ 90 := high
    exact isBlank_of_visible (by omega) (by omega)
  · have low : 97 ≤ c.toNat := low
    have high : c.toNat ≤ 122 := high
    exact isBlank_of_visible (by omega) (by omega)

@[simp] theorem trimStart_space (text : List Char) : trimStart (' ' :: text) = trimStart text := rfl

theorem trimStart_of_solid {word : List Char} (solid : Solid word) (rest : List Char) :
    trimStart (word ++ rest) = word ++ rest := by
  obtain ⟨c, more, rfl⟩ := List.exists_cons_of_ne_nil solid.nonempty
  exact List.dropWhile_cons_of_neg (by simpa using solid.unbroken c List.mem_cons_self)

/-- So many digits, the last ones of the number. -/
def fixed : Nat → Nat → List Char
  | 0, _ => []
  | width + 1, n => fixed width (n / 10) ++ [Nat.digitChar (n % 10)]

@[simp] theorem length_fixed (width n : Nat) : (fixed width n).length = width := by
  induction width generalizing n with
  | zero => rfl
  | succ width ih => simp [fixed, ih]

theorem isDigit_digitChar {digit : Nat} (small : digit < 10) : (Nat.digitChar digit).isDigit = true := by
  interval_cases digit <;> rfl

theorem digit?_digitChar {digit : Nat} (small : digit < 10) : digit? (Nat.digitChar digit) = some digit := by
  interval_cases digit <;> rfl

theorem isDigit_of_mem_fixed {width n : Nat} : ∀ c ∈ fixed width n, c.isDigit = true := by
  induction width generalizing n with
  | zero => nofun
  | succ width ih =>
    exact List.forall_mem_append.mpr ⟨ih, List.forall_mem_singleton.mpr (isDigit_digitChar (Nat.mod_lt _ (by decide)))⟩

theorem isBlank_of_isDigit {c : Char} (digit : c.isDigit = true) : isBlank c = false := by
  simp only [Char.isDigit, Bool.and_eq_true, decide_eq_true_eq] at digit
  have low : 48 ≤ c.toNat := digit.1
  have high : c.toNat ≤ 57 := digit.2
  exact isBlank_of_visible (by omega) (by omega)

theorem solid_fixed {width : Nat} (some : 0 < width) (n : Nat) : Solid (fixed width n) where
  nonempty := List.ne_nil_of_length_pos (by rwa [length_fixed])
  unbroken c member := isBlank_of_isDigit (isDigit_of_mem_fixed c member)

theorem digitsFrom_append (value : Nat) (front back : List Char) :
    digitsFrom value (front ++ back) = (digitsFrom value front).bind fun value => digitsFrom value back := by
  induction front generalizing value with
  | nil => rfl
  | cons c front ih =>
    rw [List.cons_append, digitsFrom, digitsFrom, Option.bind_assoc]
    exact Option.bind_congr fun digit _ => ih (10 * value + digit)

theorem digitsFrom_fixed {width n : Nat} (value : Nat) (fits : n < 10 ^ width) :
    digitsFrom value (fixed width n) = some (10 ^ width * value + n) := by
  induction width generalizing n with
  | zero =>
    obtain rfl : n = 0 := by simpa using fits
    simp [fixed, digitsFrom]
  | succ width ih =>
    have fewer : n / 10 < 10 ^ width := by rw [Nat.pow_succ] at fits; omega
    rw [fixed, digitsFrom_append, ih fewer, Option.bind_some, digitsFrom, digit?_digitChar (Nat.mod_lt _ (by decide))]
    simp only [Option.bind_some, digitsFrom, Option.some.injEq, Nat.pow_succ]
    have parts := Nat.div_add_mod n 10
    linarith

theorem digits?_fixed {width n : Nat} (some : 0 < width) (fits : n < 10 ^ width) : digits? (fixed width n) = .some n := by
  have read := digitsFrom_fixed 0 fits
  rw [Nat.mul_zero, Nat.zero_add] at read
  rwa [digits?.eq_2 _ (solid_fixed some n).nonempty]

end QuorumWarden.Text
