import Mathlib
import QuorumWarden.Json.Writer
import QuorumWarden.Proofs.JsonReading

/-! What is written as JSON is spelled by the grammar, with no space between its parts. -/

namespace QuorumWarden.Json

open Nat (toDigits)

/-- The four digits that a control character is escaped with are its code. -/
theorem hexFour?_hexDigit : ∀ code < 32,
    hexFour? ['0', '0', hexDigit (code / 16), hexDigit (code % 16)] = some (code, []) := by decide

theorem spelled_escaped {units : List Unit16} {text : List Char} (c : Char) (rest : Spelled units text) :
    Spelled (.character c :: units) (escaped c ++ text) := by
  unfold escaped
  split
  next => exact .letter rfl rest
  next => exact .letter rfl rest
  next => exact .letter rfl rest
  next => exact .letter rfl rest
  next => exact .letter rfl rest
  next => exact .letter rfl rest
  next => exact .letter rfl rest
  next quote backslash _ _ _ _ _ =>
    split
    next control =>
      have spelled := Spelled.code (hexFour?_hexDigit c.toNat control) rest
      have noHalf : unit16 c.toNat = .character c := by
        rw [unit16, if_neg (by omega), if_neg (by omega), Char.ofNat_toNat]
      rwa [noHalf] at spelled
    next visible => exact .plain ⟨quote, backslash, Nat.not_lt.mp visible⟩ rest

theorem spelled_flatMap_escaped (text : List Char) : Spelled (text.map .character) (text.flatMap escaped) := by
  induction text with
  | nil => exact .nil
  | cons c text ih => exact spelled_escaped c ih

theorem characters?_map (text : List Char) : characters? (text.map .character) = some text := by
  induction text with
  | nil => rfl
  | cons c text ih => rw [List.map_cons, characters?, ih, Option.map_some]

theorem toList_quoted (text : String) : (quoted text).toList = '"' :: (text.toList.flatMap escaped ++ ['"']) := by
  simp [quoted]

theorem string_characters (text : String) :
    (characters? (text.toList.map .character)).map String.ofList = some text := by
  rw [characters?_map, Option.map_some, String.ofList_toList]

theorem spells_quoted (text : String) : Spells (.text (some text)) (quoted text).toList := by
  rw [toList_quoted, ← string_characters]
  exact .text (spelled_flatMap_escaped text.toList)

/-- The digits of an integer are a number, unless they are those of minus zero. -/
theorem unsigned_toDigits {negative : Bool} {n : Nat} (proper : negative = true → n ≠ 0) :
    Unsigned negative (.integer (if negative then -n else n)) (toDigits 10 n) := by
  have number : Unsigned negative _ _ := .mk n .whole .plain
  have whole : (false || false || (negative && n == 0)) = false := by simpa using proper
  rwa [whole, if_neg Bool.false_ne_true, List.append_nil, List.append_nil] at number

theorem spells_integer (value : Int) : Spells (.integer value) (toString value).toList := by
  obtain ⟨n, rfl | rfl⟩ := value.eq_nat_or_neg
  · rw [Text.toList_toString_ofNat]
    exact .number (unsigned_toDigits nofun)
  · by_cases zero : n = 0
    · subst zero
      exact .number (unsigned_toDigits nofun)
    · rw [Text.toList_toString_neg zero]
      exact .negative (unsigned_toDigits fun _ => zero)

theorem spells_bool (value : Bool) : Spells (.bool value) (Json.bool value).toList := by
  cases value with
  | true => exact .yes
  | false => exact .no

theorem spellsEntry_field {value : Value} {written : String} (name : String) (spells : Spells value written.toList) :
    SpellsEntry (some name, value) (field name written).toList := by
  have none : Gap [] := nofun
  have entry := SpellsEntry.mk (spelled_flatMap_escaped name.toList) none none spells
  rw [string_characters] at entry
  have text : (field name written).toList = '"' :: (name.toList.flatMap escaped ++ '"' :: ':' :: written.toList) := by
    simp [field, toList_quoted]
  rwa [text]

theorem spellsEntries_intercalate {entries : List (Option String × Value)} {fields : List String}
    (spells : List.Forall₂ (fun entry field => SpellsEntry entry field.toList) entries fields) (some : entries ≠ []) :
    SpellsEntries entries (",".intercalate fields).toList := by
  have none : Gap [] := nofun
  induction spells with
  | nil => exact absurd rfl some
  | @cons entry field entries fields first others ih =>
    cases others with
    | nil =>
      have last := SpellsEntries.last none first none
      rwa [List.nil_append, List.append_nil] at last
    | cons =>
      have more := SpellsEntries.more none first none (ih nofun)
      rw [String.intercalate_cons_cons, String.toList_append, String.toList_append, List.append_assoc]
      exact more

/-- An object of written fields is spelled with its entries in their order. -/
theorem spells_object {entries : List (Option String × Value)} {fields : List String}
    (spells : List.Forall₂ (fun entry field => SpellsEntry entry field.toList) entries fields) :
    Spells (.object entries) (object fields).toList := by
  have text : (object fields).toList = '\x7b' :: ((",".intercalate fields).toList ++ ['\x7d']) := by simp [object]
  rw [text]
  cases spells with
  | nil => exact .emptyObject nofun
  | cons first others => exact .object (spellsEntries_intercalate (.cons first others) nofun)

end QuorumWarden.Json
