import Mathlib
import QuorumWarden.Json.Reader
import QuorumWarden.Proofs.Numerals

/-! How the values of JSON texts may be spelled. The readers of strings and of numbers take every spelling that the
grammar allows, with any rest behind it, and no other text. -/

namespace QuorumWarden.Json

open Nat (toDigits)

/-- Spaces between the parts of a text. -/
def Gap (text : List Char) : Prop := ∀ c ∈ text, isSpace c = true

/-- The elements of a string, each of which stands for itself or is escaped, by a letter or by its code. -/
inductive Spelled : List Unit16 → List Char → Prop where
  | nil : Spelled [] []
  | plain {c : Char} {units : List Unit16} {text : List Char} (ordinary : c ≠ '"' ∧ c ≠ '\\' ∧ 0x20 ≤ c.toNat)
      (rest : Spelled units text) : Spelled (.character c :: units) (c :: text)
  | letter {letter c : Char} {units : List Unit16} {text : List Char} (stands : escape? letter = some c)
      (rest : Spelled units text) : Spelled (.character c :: units) ('\\' :: letter :: text)
  | code {a b c d : Char} {code : Nat} {units : List Unit16} {text : List Char}
      (hex : hexFour? [a, b, c, d] = some (code, [])) (rest : Spelled units text) :
      Spelled (unit16 code :: units) ('\\' :: 'u' :: a :: b :: c :: d :: text)

variable {units : List Unit16} {text body rest : List Char} {fuel : Nat}

theorem hexFour?_cons (a b c d : Char) (rest : List Char) :
    hexFour? (a :: b :: c :: d :: rest) = (hexFour? [a, b, c, d]).map fun (code, _) => (code, rest) := by
  simp only [hexFour?, Option.bind_eq_bind, Option.map_bind, Function.comp_def, Option.map_some]

theorem exists_of_hexFour? {code : Nat} (read : hexFour? text = some (code, rest)) :
    ∃ a b c d, text = a :: b :: c :: d :: rest ∧ hexFour? [a, b, c, d] = some (code, []) := by
  match text with
  | a :: b :: c :: d :: tail =>
    have four := hexFour?_cons a b c d
    rw [four] at read
    obtain ⟨⟨_, left⟩, hex, same⟩ := Option.map_eq_some_iff.mp read
    cases same
    refine ⟨a, b, c, d, rfl, ?_⟩
    rw [four, hex]
    rfl
  | [] | [_] | [_, _] | [_, _, _] => cases read

theorem Spelled.read (spelled : Spelled units body) (enough : body.length < fuel) (rest : List Char) :
    unitsFrom fuel (body ++ '"' :: rest) = some (units, rest) := by
  induction spelled generalizing fuel with
  | nil =>
    obtain ⟨fuel, rfl⟩ := Nat.exists_eq_add_one.mpr enough
    rfl
  | @plain c units text ordinary spelled ih =>
    obtain ⟨fuel, rfl⟩ := Nat.exists_eq_add_one.mpr (Nat.zero_lt_of_lt enough)
    have tail := ih (Nat.lt_of_succ_lt_succ enough)
    obtain ⟨_, backslash, visible⟩ := ordinary
    simp [unitsFrom, tail, backslash, visible]
  | @letter letter c units text stands spelled ih =>
    obtain ⟨fuel, rfl⟩ := Nat.exists_eq_add_one.mpr (Nat.zero_lt_of_lt enough)
    have tail : unitsFrom fuel (text ++ '"' :: rest) = some (units, rest) := by
      apply ih
      simp only [List.length_cons] at enough
      omega
    have other : letter ≠ 'u' := by
      intro same
      subst same
      cases stands
    simp [unitsFrom, tail, stands]
  | @code a b c d code units text hex spelled ih =>
    obtain ⟨fuel, rfl⟩ := Nat.exists_eq_add_one.mpr (Nat.zero_lt_of_lt enough)
    have tail : unitsFrom fuel (text ++ '"' :: rest) = some (units, rest) := by
      apply ih
      simp only [List.length_cons] at enough
      omega
    simp [unitsFrom, hexFour?_cons a b c d (text ++ _), hex, tail]

theorem spelled_of_unitsFrom (read : unitsFrom fuel text = some (units, rest)) :
    ∃ body, text = body ++ '"' :: rest ∧ Spelled units body := by
  fun_induction unitsFrom fuel text generalizing units with
  | case1 => cases read
  | case2 => cases read
  | case3 fuel tail =>
    cases read
    exact ⟨[], rfl, .nil⟩
  | case4 fuel tail ih =>
    simp only [Option.bind_eq_bind, Option.bind_eq_some_iff] at read
    obtain ⟨⟨code, behind⟩, hex, ⟨units, _⟩, read, same⟩ := read
    cases same
    obtain ⟨a, b, c, d, rfl, four⟩ := exists_of_hexFour? hex
    obtain ⟨body, rfl, spelled⟩ := ih behind read
    exact ⟨'\\' :: 'u' :: a :: b :: c :: d :: body, rfl, .code four spelled⟩
  | case5 fuel letter tail other ih =>
    simp only [Option.bind_eq_bind, Option.bind_eq_some_iff] at read
    obtain ⟨c, stands, ⟨units, _⟩, read, same⟩ := read
    cases same
    obtain ⟨body, rfl, spelled⟩ := ih read
    exact ⟨_, rfl, .letter stands spelled⟩
  | case6 => cases read
  | case7 fuel c tail quote _ _ _ ordinary =>
    rename_i ih
    obtain ⟨⟨units, _⟩, read, same⟩ := Option.bind_eq_some_iff.mp read
    cases same
    obtain ⟨body, rfl, spelled⟩ := ih read
    simp only [Bool.or_eq_true, beq_iff_eq, decide_eq_true_eq, not_or, Nat.not_lt] at ordinary
    exact ⟨_, rfl, .plain ⟨quote, ordinary⟩ spelled⟩

theorem string?_eq_some_iff {value : Option String} : string? text = some (value, rest) ↔
    ∃ units body, text = body ++ '"' :: rest ∧ Spelled units body ∧ value = (characters? units).map String.ofList := by
  constructor
  · intro read
    obtain ⟨⟨units, _⟩, read, same⟩ := Option.map_eq_some_iff.mp read
    cases same
    obtain ⟨body, split, spelled⟩ := spelled_of_unitsFrom read
    exact ⟨units, body, split, spelled, rfl⟩
  · intro spelling
    obtain ⟨units, body, rfl, spelled, rfl⟩ := spelling
    have enough : body.length < (body ++ '"' :: rest).length + 1 := by simp
    rw [string?, spelled.read enough, Option.map_some]

/-- At least one digit. -/
def Digits (text : List Char) : Prop := text ≠ [] ∧ ∀ c ∈ text, c.isDigit = true

/-- A point with digits behind it, or nothing. -/
inductive Fraction : Bool → List Char → Prop where
  | whole : Fraction false []
  | point {digits : List Char} (run : Digits digits) : Fraction true ('.' :: digits)

/-- A power of ten, or nothing. -/
inductive Exponent : Bool → List Char → Prop where
  | plain : Exponent false []
  | power {mark : Char} {sign digits : List Char} (marks : mark = 'e' ∨ mark = 'E')
      (signs : sign = [] ∨ sign = ['+'] ∨ sign = ['-']) (run : Digits digits) :
      Exponent true (mark :: (sign ++ digits))

/-- A number without its sign. Only one that has neither a fraction nor an exponent is an integer, and minus zero
is none. -/
inductive Unsigned (negative : Bool) : Value → List Char → Prop where
  | mk (n : Nat) {fractional powered : Bool} {fraction exponent : List Char} (fractions : Fraction fractional fraction)
      (exponents : Exponent powered exponent) :
      Unsigned negative
        (if fractional || powered || (negative && n == 0) then .nonInteger else .integer (if negative then -n else n))
        (toDigits 10 n ++ fraction ++ exponent)

/-- No number that ends here goes on with the next character. -/
def EndsNumber (rest : List Char) : Prop :=
  ∀ c ∈ rest.head?, c.isDigit = false ∧ c ≠ '.' ∧ c ≠ 'e' ∧ c ≠ 'E'

theorem takeWhile_run {p : Char → Bool} {front : List Char} (run : ∀ c ∈ front, p c = true)
    (ends : ∀ c ∈ rest.head?, p c = false) : (front ++ rest).takeWhile p = front := by
  rw [List.takeWhile_append_of_pos run]
  cases rest with
  | nil => rw [List.takeWhile_nil, List.append_nil]
  | cons c rest => rw [List.takeWhile_cons_of_neg (by simp [ends c rfl]), List.append_nil]

theorem someDigits?_of_digits {digits : List Char} (run : Digits digits) (ends : ∀ c ∈ rest.head?, c.isDigit = false) :
    someDigits? (digits ++ rest) = some (digits, rest) := by
  obtain ⟨nonempty, run⟩ := run
  simp [someDigits?, takeWhile_run run ends, nonempty]

theorem digits_of_someDigits? {digits : List Char} (read : someDigits? text = some (digits, rest)) :
    text = digits ++ rest ∧ Digits digits := by
  obtain ⟨nonempty, same⟩ := Option.ite_none_left_eq_some.mp read
  cases same
  refine ⟨?_, ?_, fun c => List.mem_takeWhile_imp⟩
  · exact (List.prefix_iff_eq_append.mp (List.takeWhile_prefix _)).symm
  · simpa using nonempty

theorem Fraction.read {fractional : Bool} (fraction : Fraction fractional body)
    (ends : ∀ c ∈ rest.head?, c.isDigit = false ∧ c ≠ '.') : fraction? (body ++ rest) = some (fractional, rest) := by
  cases fraction with
  | whole =>
    rw [List.nil_append, fraction?]
    intro tail same
    subst same
    exact (ends '.' rfl).2 rfl
  | point run =>
    rw [List.cons_append, fraction?, someDigits?_of_digits run fun c first => (ends c first).1]
    rfl

theorem fraction_of_read {fractional : Bool} (read : fraction? text = some (fractional, rest)) :
    ∃ body, text = body ++ rest ∧ Fraction fractional body := by
  unfold fraction? at read
  split at read
  next tail =>
    obtain ⟨⟨digits, _⟩, some, same⟩ := Option.map_eq_some_iff.mp read
    cases same
    obtain ⟨rfl, run⟩ := digits_of_someDigits? some
    exact ⟨_, rfl, .point run⟩
  next =>
    cases read
    exact ⟨[], rfl, .whole⟩

theorem Exponent.read {powered : Bool} (exponent : Exponent powered body) (ends : EndsNumber rest) :
    exponent? (body ++ rest) = some (powered, rest) := by
  cases exponent with
  | plain =>
    cases rest with
    | nil => rfl
    | cons c rest =>
      obtain ⟨_, _, small, large⟩ := ends c rfl
      simp [exponent?, small, large]
  | @power mark sign digits marks signs run =>
    have number := someDigits?_of_digits run fun c first => (ends c first).1
    have marked : (mark == 'e' || mark == 'E') = true := by simpa using marks
    rcases signs with rfl | rfl | rfl
    · obtain ⟨first, digits, rfl⟩ := List.exists_cons_of_ne_nil run.1
      have digit := run.2 first List.mem_cons_self
      have plus : first ≠ '+' := Text.ne_of_isDigit digit rfl
      have minus : first ≠ '-' := Text.ne_of_isDigit digit rfl
      simp only [List.cons_append] at number
      simp [exponent?, marked, number, plus, minus]
    · simp [exponent?, marked, number]
    · simp [exponent?, marked, number]

theorem exponent_of_read {powered : Bool} (read : exponent? text = some (powered, rest)) :
    ∃ body, text = body ++ rest ∧ Exponent powered body := by
  unfold exponent? at read
  split at read
  next c tail =>
    split at read
    next marked =>
      have marks : c = 'e' ∨ c = 'E' := by simpa using marked
      obtain ⟨⟨digits, _⟩, some, same⟩ := Option.map_eq_some_iff.mp read
      cases same
      obtain ⟨behind, run⟩ := digits_of_someDigits? some
      have signed : ∃ sign, (sign = [] ∨ sign = ['+'] ∨ sign = ['-']) ∧ tail = sign ++ (digits ++ rest) := by
        split at behind
        next sign after =>
          split at behind
          next signs =>
            have same : sign = '+' ∨ sign = '-' := by simpa using signs
            exact ⟨[sign], by simpa using same, by rw [← behind]; rfl⟩
          next => exact ⟨[], Or.inl rfl, behind⟩
        next => exact ⟨[], Or.inl rfl, behind⟩
      obtain ⟨sign, signs, rfl⟩ := signed
      exact ⟨c :: (sign ++ digits), by simp, .power marks signs run⟩
    next =>
      cases read
      exact ⟨[], rfl, .plain⟩
  next =>
    cases read
    exact ⟨[], rfl, .plain⟩

/-- No number that ends here goes on with a fraction or with an exponent. -/
theorem Exponent.head {powered : Bool} (exponent : Exponent powered body) (ends : EndsNumber rest) :
    ∀ c ∈ (body ++ rest).head?, c.isDigit = false ∧ c ≠ '.' := by
  cases exponent with
  | plain => exact fun c first => ⟨(ends c first).1, (ends c first).2.1⟩
  | power marks _ _ =>
    intro c first
    cases first
    rcases marks with rfl | rfl
    · exact ⟨rfl, by decide⟩
    · exact ⟨rfl, by decide⟩

theorem Fraction.head {fractional : Bool} (fraction : Fraction fractional body)
    (ends : ∀ c ∈ rest.head?, c.isDigit = false ∧ c ≠ '.') : ∀ c ∈ (body ++ rest).head?, c.isDigit = false := by
  cases fraction with
  | whole => exact fun c first => (ends c first).1
  | point =>
    intro c first
    cases first
    rfl

theorem digits_toDigits (n : Nat) : Digits (toDigits 10 n) :=
  ⟨Nat.toDigits_ne_nil, fun _ => Nat.isDigit_of_mem_toDigits (by decide) (by decide)⟩

theorem digits?_toDigits (n : Nat) : Text.digits? (toDigits 10 n) = some n :=
  Text.digits?_eq_some_iff.mpr ⟨0, rfl⟩

theorem noLeadingZero_toDigits (n : Nat) :
    ((toDigits 10 n).head? == some '0' && (toDigits 10 n).length != 1) = false := by
  by_cases zero : n = 0
  · subst zero
    rfl
  · obtain ⟨first, tail, printed, _, other⟩ := Text.toDigits_eq_cons zero
    simp [printed, other]

/-- Digits without a needless zero in front are the ones that are printed. -/
theorem eq_toDigits_of_digits {digits : List Char} (run : Digits digits)
    (noLeadingZero : ¬(digits.head? == some '0' && digits.length != 1) = true) : ∃ n, digits = toDigits 10 n := by
  obtain ⟨n, number⟩ := Text.exists_digits? run.1 run.2
  obtain ⟨zeros, rfl⟩ := Text.digits?_eq_some_iff.mp number
  cases zeros with
  | zero => exact ⟨n, rfl⟩
  | succ zeros =>
    apply absurd _ noLeadingZero
    simp [List.replicate_succ, Nat.toDigits_ne_nil]

theorem Unsigned.read {negative : Bool} {value : Value} (number : Unsigned negative value body)
    (ends : EndsNumber rest) : unsigned? negative (body ++ rest) = some (value, rest) := by
  cases number with
  | @mk n fractional powered fraction exponent fractions exponents =>
    have follow := exponents.head ends
    have digits := someDigits?_of_digits (digits_toDigits n) (fractions.head follow)
    rw [unsigned?, List.append_assoc, List.append_assoc, digits]
    simp only [Option.bind_eq_bind, Option.bind_some, noLeadingZero_toDigits, fractions.read follow, exponents.read ends,
      digits?_toDigits, Option.getD_some]
    rw [if_neg Bool.false_ne_true, apply_ite (Prod.mk · rest), apply_ite some]

theorem unsigned_of_read {negative : Bool} {value : Value} (read : unsigned? negative text = some (value, rest)) :
    ∃ body, text = body ++ rest ∧ Unsigned negative value body := by
  simp only [unsigned?, Option.bind_eq_bind, Option.bind_eq_some_iff] at read
  obtain ⟨⟨digits, behind⟩, front, read⟩ := read
  obtain ⟨rfl, run⟩ := digits_of_someDigits? front
  split at read
  next => cases read
  next noLeadingZero =>
    obtain ⟨n, rfl⟩ := eq_toDigits_of_digits run noLeadingZero
    simp only [Option.bind_eq_some_iff, digits?_toDigits, Option.getD_some] at read
    obtain ⟨⟨fractional, behind⟩, second, ⟨powered, last⟩, third, same⟩ := read
    obtain ⟨fraction, rfl, fractions⟩ := fraction_of_read second
    obtain ⟨exponent, rfl, exponents⟩ := exponent_of_read third
    rw [← apply_ite some, ← apply_ite (Prod.mk · _)] at same
    cases same
    exact ⟨toDigits 10 n ++ fraction ++ exponent, by simp, .mk n fractions exponents⟩

end QuorumWarden.Json
