import Mathlib
import QuorumWarden.Proofs.PrintedTexts

/-! Integers as they may be written. The reader takes every spelling, with a sign where one fits and any zeros in front,
and the printed one is the spelling that has none of these without need. -/

namespace QuorumWarden.Text

open Nat (toDigits)

theorem digit?_eq_some {c : Char} {digit : Nat} (read : digit? c = some digit) : digit < 10 ∧ [c] = toDigits 10 digit := by
  obtain ⟨numeral, same⟩ := Option.ite_none_right_eq_some.mp read
  cases same
  simp only [Char.isDigit, Bool.and_eq_true, decide_eq_true_eq] at numeral
  have low : 48 ≤ c.toNat := numeral.1
  have high : c.toNat ≤ 57 := numeral.2
  have zero : '0'.toNat = 48 := rfl
  have small : c.toNat - '0'.toNat < 10 := by omega
  refine ⟨small, ?_⟩
  rw [Nat.toDigits_of_lt_base small, List.singleton_inj]
  apply Char.toNat_inj.mp
  rw [Nat.toNat_digitChar_of_lt_ten small]
  omega

theorem exists_digitsFrom {text : List Char} (run : ∀ c ∈ text, c.isDigit = true) (value : Nat) :
    ∃ n, digitsFrom value text = some n := by
  induction text generalizing value with
  | nil => exact ⟨value, rfl⟩
  | cons c rest ih =>
    obtain ⟨numeral, run⟩ := List.forall_mem_cons.mp run
    rw [digitsFrom, digit?, if_pos numeral, Option.bind_some]
    exact ih run _

theorem exists_digits? {text : List Char} (nonempty : text ≠ []) (run : ∀ c ∈ text, c.isDigit = true) :
    ∃ n, digits? text = some n := by
  rw [digits?.eq_2 text nonempty]
  exact exists_digitsFrom run 0

theorem digitsFrom_zeros (zeros : Nat) (rest : List Char) :
    digitsFrom 0 (List.replicate zeros '0' ++ rest) = digitsFrom 0 rest := by
  induction zeros with
  | zero => rfl
  | succ zeros ih => exact ih

theorem digitsFrom_toDigits (n : Nat) : digitsFrom 0 (toDigits 10 n) = some n := by
  induction n using Nat.strongRecOn with
  | ind n ih =>
    rw [Nat.toDigits_eq_if (by decide)]
    split
    next small => simp [digitsFrom, digit?_digitChar small]
    next large =>
      rw [digitsFrom_append, ih (n / 10) (by omega), Option.bind_some, digitsFrom,
        digit?_digitChar (Nat.mod_lt _ (by decide))]
      simp only [Option.bind_some, digitsFrom, Option.some.injEq]
      omega

/-- Once a digit other than zero has been read, the rest can be read in one way only. -/
theorem toDigits_of_digitsFrom {value n : Nat} {text : List Char} (positive : 0 < value)
    (read : digitsFrom value text = some n) : toDigits 10 value ++ text = toDigits 10 n := by
  induction text generalizing value with
  | nil =>
    cases read
    exact List.append_nil _
  | cons c rest ih =>
    obtain ⟨digit, first, read⟩ := Option.bind_eq_some_iff.mp read
    obtain ⟨small, printed⟩ := digit?_eq_some first
    calc toDigits 10 value ++ c :: rest = toDigits 10 value ++ toDigits 10 digit ++ rest := by rw [← printed]; simp
      _ = toDigits 10 (10 * value + digit) ++ rest := by rw [Nat.toDigits_append_toDigits (by decide) positive small]
      _ = toDigits 10 n := ih (by omega) read

theorem digits?_eq_some_iff {text : List Char} {n : Nat} :
    digits? text = some n ↔ ∃ zeros, text = List.replicate zeros '0' ++ toDigits 10 n := by
  constructor
  · intro read
    induction text with
    | nil => cases read
    | cons c rest ih =>
      obtain ⟨digit, first, read⟩ := Option.bind_eq_some_iff.mp (digits?.eq_2 (c :: rest) (List.cons_ne_nil c rest) ▸ read)
      obtain ⟨small, printed⟩ := digit?_eq_some first
      rw [Nat.mul_zero, Nat.zero_add] at read
      rcases Nat.eq_zero_or_pos digit with rfl | positive
      · obtain rfl : c = '0' := by simpa using printed
        by_cases last : rest = []
        · subst last
          cases read
          exact ⟨0, rfl⟩
        · obtain ⟨zeros, rfl⟩ := ih (digits?.eq_2 rest last ▸ read)
          exact ⟨zeros + 1, rfl⟩
      · refine ⟨0, ?_⟩
        rw [← toDigits_of_digitsFrom positive read, ← printed]
        rfl
  · rintro ⟨zeros, rfl⟩
    rw [digits?.eq_2 _ (by simp [Nat.toDigits_ne_nil]), digitsFrom_zeros, digitsFrom_toDigits]

/-- The ways to write an integer: its digits, any zeros in front of them, and a sign. Zero takes either sign. -/
inductive Numeral : Int → List Char → Prop where
  | unsigned (zeros n : Nat) : Numeral n (List.replicate zeros '0' ++ toDigits 10 n)
  | plus (zeros n : Nat) : Numeral n ('+' :: (List.replicate zeros '0' ++ toDigits 10 n))
  | minus (zeros n : Nat) : Numeral (-n) ('-' :: (List.replicate zeros '0' ++ toDigits 10 n))

theorem Numeral.exists_longer {value : Int} {text : List Char} (numeral : Numeral value text) :
    ∃ longer, Numeral value longer ∧ text.length < longer.length := by
  cases numeral with
  | unsigned zeros n => exact ⟨_, .unsigned (zeros + 1) n, by simp⟩
  | plus zeros n => exact ⟨_, .plus (zeros + 1) n, by simp⟩
  | minus zeros n => exact ⟨_, .minus (zeros + 1) n, by simp⟩

theorem isDigit_of_mem_digits {zeros n : Nat} : ∀ c ∈ List.replicate zeros '0' ++ toDigits 10 n, c.isDigit = true := by
  refine List.forall_mem_append.mpr ⟨fun c member => ?_, fun c member => ?_⟩
  · rw [List.eq_of_mem_replicate member]
    rfl
  · exact Nat.isDigit_of_mem_toDigits (by decide) (by decide) member

theorem ne_of_isDigit {c sign : Char} (digit : c.isDigit = true) (other : sign.isDigit = false) : c ≠ sign := by
  rintro rfl
  rw [other] at digit
  cases digit

/-- A text of digits is read without a sign. -/
theorem integer?_of_isDigit {text : List Char} (digits : ∀ c ∈ text, c.isDigit = true) :
    integer? text = (digits? text).map Int.ofNat := by
  have unsigned {sign : Char} (other : sign.isDigit = false) (rest : List Char) : text ≠ sign :: rest := by
    rintro rfl
    exact ne_of_isDigit (digits sign List.mem_cons_self) other rfl
  rw [integer?, natural?]
  · exact fun rest => unsigned rfl rest
  · exact fun rest => unsigned rfl rest

theorem integer?_eq_some_iff {text : List Char} {value : Int} : integer? text = some value ↔ Numeral value text := by
  constructor
  · intro read
    unfold integer? at read
    split at read
    next rest =>
      obtain ⟨_, natural, rfl⟩ := Option.map_eq_some_iff.mp read
      obtain ⟨n, digits, same⟩ := Option.bind_eq_some_iff.mp natural
      cases same
      obtain ⟨zeros, rfl⟩ := digits?_eq_some_iff.mp digits
      exact .minus zeros n
    next =>
      obtain ⟨n, natural, rfl⟩ := Option.map_eq_some_iff.mp read
      unfold natural? at natural
      split at natural
      next rest =>
        obtain ⟨zeros, rfl⟩ := digits?_eq_some_iff.mp natural
        exact .plus zeros n
      next =>
        obtain ⟨zeros, rfl⟩ := digits?_eq_some_iff.mp natural
        exact .unsigned zeros n
  · intro numeral
    cases numeral with
    | unsigned zeros n =>
      rw [integer?_of_isDigit isDigit_of_mem_digits, digits?_eq_some_iff.mpr ⟨zeros, rfl⟩]
      rfl
    | plus zeros n | minus zeros n => simp [integer?, natural?, digits?_eq_some_iff.mpr ⟨zeros, rfl⟩]

/-- The integers of 32 bits. -/
def FitsInt32 (value : Int) : Prop := -2147483648 ≤ value ∧ value ≤ 2147483647

instance (value : Int) : Decidable (FitsInt32 value) := inferInstanceAs (Decidable (_ ∧ _))

theorem int32?_eq_some_iff {text : String} {value : Int} :
    int32? text = some value ↔ FitsInt32 value ∧ Numeral value text.toList := by
  rw [int32?, integerWithin?, Option.filter_eq_some_iff, integer?_eq_some_iff, decide_eq_true_eq, and_comm]
  rfl

/-- No sign and no zero without need: no plus at all, no minus of zero, and no zero in front of another digit. -/
def isTerse : List Char → Bool
  | '+' :: _ => false
  | '-' :: '0' :: _ => false
  | '0' :: _ :: _ => false
  | _ => true

theorem toDigits_eq_cons {n : Nat} (positive : n ≠ 0) :
    ∃ first rest, toDigits 10 n = first :: rest ∧ first.isDigit = true ∧ first ≠ '0' := by
  induction n using Nat.strongRecOn with
  | ind n ih =>
    rw [Nat.toDigits_eq_if (by decide)]
    split
    next small => exact ⟨_, [], rfl, isDigit_digitChar small, fun same => positive (Nat.digitChar_eq_zero.mp same)⟩
    next large =>
      obtain ⟨first, rest, printed, head⟩ := ih (n / 10) (by omega) (by omega)
      exact ⟨first, _, by rw [printed]; rfl, head⟩

theorem isTerse_toDigits (n : Nat) : isTerse (toDigits 10 n) = true := by
  by_cases zero : n = 0
  · subst zero
    rfl
  · obtain ⟨first, rest, printed, digit, other⟩ := toDigits_eq_cons zero
    have unlike {c : Char} (other : first ≠ c) (tail : List Char) : first :: rest ≠ c :: tail :=
      fun same => other (List.cons.inj same).1
    rw [printed, isTerse]
    · exact unlike (ne_of_isDigit digit rfl)
    · exact fun _ => unlike (ne_of_isDigit digit rfl) _
    · exact fun _ _ => unlike other _

theorem isTerse_minus {n : Nat} (positive : n ≠ 0) : isTerse ('-' :: toDigits 10 n) = true := by
  obtain ⟨first, rest, printed, _, other⟩ := toDigits_eq_cons positive
  rw [printed, isTerse]
  · exact nofun
  · exact fun _ same => other (List.cons.inj (List.cons.inj same).2).1
  · exact nofun

theorem toList_toString_ofNat (n : Nat) : (toString (n : Int)).toList = toDigits 10 n := by
  rw [Int.toString_eq_repr, Int.repr_eq_if, if_pos (Int.natCast_nonneg n), Int.toNat_natCast, Nat.toList_repr]

theorem toList_toString_neg {n : Nat} (positive : n ≠ 0) : (toString (-n : Int)).toList = '-' :: toDigits 10 n := by
  have below : ¬(0 : Int) ≤ -n := by omega
  rw [Int.toString_eq_repr, Int.repr_eq_if, if_neg below, neg_neg, Int.toNat_natCast, String.toList_append,
    Nat.toList_repr]
  rfl

theorem numeral_toString (value : Int) : Numeral value (toString value).toList := by
  obtain ⟨n, rfl | rfl⟩ := value.eq_nat_or_neg
  · rw [toList_toString_ofNat]
    exact .unsigned 0 n
  · by_cases zero : n = 0
    · subst zero
      exact .unsigned 0 0
    · rw [toList_toString_neg zero]
      exact .minus 0 n

/-- Of all spellings of an integer the terse one is the one that is printed. -/
theorem Numeral.isTerse_iff {value : Int} {text : List Char} (numeral : Numeral value text) :
    isTerse text = true ↔ text = (toString value).toList := by
  have padded (zeros n : Nat) : List.replicate (zeros + 1) '0' ++ toDigits 10 n ≠ toDigits 10 n := by simp
  have signed (sign : Char) (other : sign.isDigit = false) (rest : List Char) (n : Nat) : sign :: rest ≠ toDigits 10 n := by
    intro same
    have member : sign ∈ toDigits 10 n := same ▸ List.mem_cons_self
    exact ne_of_isDigit (Nat.isDigit_of_mem_toDigits (by decide) (by decide) member) other rfl
  cases numeral with
  | unsigned zeros n =>
    rw [toList_toString_ofNat]
    cases zeros with
    | zero => simp [isTerse_toDigits]
    | succ zeros =>
      obtain ⟨c, rest, behind⟩ := List.exists_cons_of_ne_nil (l := List.replicate zeros '0' ++ toDigits 10 n)
        (by simp [Nat.toDigits_ne_nil])
      have needless : isTerse (List.replicate (zeros + 1) '0' ++ toDigits 10 n) = false := by
        rw [List.replicate_succ, List.cons_append, behind]
        rfl
      simp [needless, padded zeros n]
  | plus zeros n =>
    rw [toList_toString_ofNat]
    exact iff_of_false nofun (signed '+' rfl _ n)
  | minus zeros n =>
    by_cases zero : n = 0
    · subst zero
      have needless : isTerse ('-' :: (List.replicate zeros '0' ++ toDigits 10 0)) = false := by cases zeros <;> rfl
      rw [needless]
      exact iff_of_false nofun (signed '-' rfl _ 0)
    · rw [toList_toString_neg zero, List.cons_inj_right]
      cases zeros with
      | zero => simp [isTerse_minus zero]
      | succ zeros => exact iff_of_false nofun (padded zeros n)

end QuorumWarden.Text
