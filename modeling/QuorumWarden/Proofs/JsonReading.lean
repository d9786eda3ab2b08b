import Mathlib
import QuorumWarden.Proofs.JsonGrammar

/-! The texts that are read as JSON, and what they are read as. The fuel of the reader is enough for every text, so that
it takes exactly what the grammar allows. -/

namespace QuorumWarden.Json

mutual
/-- The spellings of a value, with no spaces around them. -/
inductive Spells : Value → List Char → Prop where
  | null : Spells .null ['n', 'u', 'l', 'l']
  | yes : Spells (.bool true) ['t', 'r', 'u', 'e']
  | no : Spells (.bool false) ['f', 'a', 'l', 's', 'e']
  | number {value : Value} {body : List Char} (number : Unsigned false value body) : Spells value body
  | negative {value : Value} {body : List Char} (number : Unsigned true value body) : Spells value ('-' :: body)
  | text {units : List Unit16} {body : List Char} (spelled : Spelled units body) :
      Spells (.text ((characters? units).map String.ofList)) ('"' :: (body ++ ['"']))
  | emptyArray {gap : List Char} (spaces : Gap gap) : Spells (.array []) ('[' :: (gap ++ [']']))
  | array {items : List Value} {body : List Char} (spells : SpellsItems items body) :
      Spells (.array items) ('[' :: (body ++ [']']))
  | emptyObject {gap : List Char} (spaces : Gap gap) : Spells (.object []) ('\x7b' :: (gap ++ ['\x7d']))
  | object {entries : List (Option String × Value)} {body : List Char} (spells : SpellsEntries entries body) :
      Spells (.object entries) ('\x7b' :: (body ++ ['\x7d']))

/-- Items with commas between them, each with any spaces around it. -/
inductive SpellsItems : List Value → List Char → Prop where
  | last {item : Value} {before body after : List Char} (leading : Gap before) (spells : Spells item body)
      (trailing : Gap after) : SpellsItems [item] (before ++ (body ++ after))
  | more {item : Value} {items : List Value} {before body after rest : List Char} (leading : Gap before)
      (spells : Spells item body) (trailing : Gap after) (others : SpellsItems items rest) :
      SpellsItems (item :: items) (before ++ (body ++ (after ++ ',' :: rest)))

/-- Entries with commas between them, each with any spaces around its key and its value. -/
inductive SpellsEntries : List (Option String × Value) → List Char → Prop where
  | last {entry : Option String × Value} {before body after : List Char} (leading : Gap before)
      (spells : SpellsEntry entry body) (trailing : Gap after) : SpellsEntries [entry] (before ++ (body ++ after))
  | more {entry : Option String × Value} {entries : List (Option String × Value)} {before body after rest : List Char}
      (leading : Gap before) (spells : SpellsEntry entry body) (trailing : Gap after)
      (others : SpellsEntries entries rest) : SpellsEntries (entry :: entries) (before ++ (body ++ (after ++ ',' :: rest)))

/-- A key, a colon and a value. -/
inductive SpellsEntry : Option String × Value → List Char → Prop where
  | mk {units : List Unit16} {value : Value} {key before after body : List Char} (spelled : Spelled units key)
      (trailing : Gap before) (leading : Gap after) (spells : Spells value body) :
      SpellsEntry ((characters? units).map String.ofList, value) ('"' :: (key ++ '"' :: (before ++ ':' :: (after ++ body))))
end

variable {value : Value} {gap body text rest : List Char} {fuel : Nat}

theorem skipSpaces_gap (spaces : Gap gap) (rest : List Char) : skipSpaces (gap ++ rest) = skipSpaces rest :=
  List.dropWhile_append_of_pos spaces

theorem skipSpaces_solid {c : Char} (solid : isSpace c = false) (rest : List Char) : skipSpaces (c :: rest) = c :: rest :=
  List.dropWhile_cons_of_neg (by simp [solid])

theorem skipSpaces_mark {c : Char} (spaces : Gap gap) (solid : isSpace c = false) (rest : List Char) :
    skipSpaces (gap ++ c :: rest) = c :: rest := by
  rw [skipSpaces_gap spaces, skipSpaces_solid solid]

theorem exists_gap (text : List Char) : ∃ gap, Gap gap ∧ text = gap ++ skipSpaces text :=
  ⟨text.takeWhile isSpace, fun _ => List.mem_takeWhile_imp, List.takeWhile_append_dropWhile.symm⟩

theorem isSpace_of_isDigit {c : Char} (digit : c.isDigit = true) : isSpace c = false := by
  have other {space : Char} (none : space.isDigit = false) : (c == space) = false :=
    beq_false_of_ne (Text.ne_of_isDigit digit none)
  rw [isSpace, other rfl, other rfl, other rfl, other rfl]
  rfl

theorem Unsigned.head {negative : Bool} (number : Unsigned negative value body) :
    ∃ c tail, body = c :: tail ∧ c.isDigit = true := by
  cases number with
  | mk n fractions exponents =>
    obtain ⟨c, digits, printed⟩ := List.exists_cons_of_ne_nil (digits_toDigits n).1
    rw [printed]
    exact ⟨c, _, rfl, (digits_toDigits n).2 c (printed ▸ List.mem_cons_self)⟩

/-- A value begins with a character of its own. -/
theorem Spells.head (spells : Spells value body) :
    ∃ c tail, body = c :: tail ∧ isSpace c = false ∧ c ≠ ']' ∧ c ≠ '\x7d' := by
  cases spells with
  | number number =>
    obtain ⟨c, tail, rfl, digit⟩ := number.head
    exact ⟨c, tail, rfl, isSpace_of_isDigit digit, Text.ne_of_isDigit digit rfl, Text.ne_of_isDigit digit rfl⟩
  | _ => exact ⟨_, _, rfl, rfl, by decide, by decide⟩

theorem Spells.begins (spells : Spells value body) (spaces : Gap gap) (rest : List Char) :
    skipSpaces (gap ++ (body ++ rest)) = body ++ rest := by
  obtain ⟨c, tail, rfl, solid, _⟩ := spells.head
  rw [skipSpaces_gap spaces, List.cons_append, skipSpaces_solid solid]

section Steps

-- the equations of the readers, made once for the whole section
attribute [local simp] value? items? entries?

theorem skipSpaces_skipSpaces (text : List Char) : skipSpaces (skipSpaces text) = skipSpaces text :=
  List.dropWhile_idempotent isSpace text

theorem value?_skipSpaces (text : List Char) : value? fuel (skipSpaces text) = value? fuel text := by
  cases fuel with
  | zero => rfl
  | succ fuel => rw [value?, value?, skipSpaces_skipSpaces]

theorem items?_skipSpaces (text : List Char) : items? fuel (skipSpaces text) = items? fuel text := by
  cases fuel with
  | zero => rfl
  | succ fuel => rw [items?, items?, value?_skipSpaces]

theorem entries?_skipSpaces (text : List Char) : entries? fuel (skipSpaces text) = entries? fuel text := by
  cases fuel with
  | zero => rfl
  | succ fuel => rw [entries?, entries?, skipSpaces_skipSpaces]

variable {inner middle behind tail : List Char} {item : Value} {items : List Value} {key : Option String}
  {entries : List (Option String × Value)}

theorem value?_number {c : Char} (digit : c.isDigit = true) (begins : skipSpaces text = c :: tail) :
    value? (fuel + 1) text = unsigned? false (c :: tail) := by
  have other {mark : Char} (none : mark.isDigit = false) : c ≠ mark := Text.ne_of_isDigit digit none
  rw [value?, begins]
  split
  next same => exact absurd (List.cons.inj same).1 (other rfl)
  next same => exact absurd (List.cons.inj same).1 (other rfl)
  next same => exact absurd (List.cons.inj same).1 (other rfl)
  next same => exact absurd (List.cons.inj same).1 (other rfl)
  next same => exact absurd (List.cons.inj same).1 (other rfl)
  next same => exact absurd (List.cons.inj same).1 (other rfl)
  next same => exact absurd (List.cons.inj same).1 (other rfl)
  next => rfl

theorem value?_text {text' : Option String} (begins : skipSpaces text = '"' :: inner)
    (read : string? inner = some (text', rest)) : value? (fuel + 1) text = some (.text text', rest) := by
  simp [begins, read]

theorem value?_array (begins : skipSpaces text = '[' :: inner) (holds : ∀ tail, skipSpaces inner ≠ ']' :: tail)
    (read : items? fuel inner = some (items, rest)) : value? (fuel + 1) text = some (.array items, rest) := by
  rw [← items?_skipSpaces] at read
  simp [begins, read]

theorem value?_emptyArray (begins : skipSpaces text = '[' :: inner) (closes : skipSpaces inner = ']' :: rest) :
    value? (fuel + 1) text = some (.array [], rest) := by
  simp [begins, closes]

theorem value?_object (begins : skipSpaces text = '\x7b' :: inner) (holds : ∀ tail, skipSpaces inner ≠ '\x7d' :: tail)
    (read : entries? fuel inner = some (entries, rest)) : value? (fuel + 1) text = some (.object entries, rest) := by
  rw [← entries?_skipSpaces] at read
  simp [begins, read]

theorem value?_emptyObject (begins : skipSpaces text = '\x7b' :: inner) (closes : skipSpaces inner = '\x7d' :: rest) :
    value? (fuel + 1) text = some (.object [], rest) := by
  simp [begins, closes]

theorem items?_last (first : value? fuel text = some (item, behind)) (closes : skipSpaces behind = ']' :: rest) :
    items? (fuel + 1) text = some ([item], rest) := by
  simp [first, closes]

theorem items?_more (first : value? fuel text = some (item, behind)) (comma : skipSpaces behind = ',' :: tail)
    (others : items? fuel tail = some (items, rest)) : items? (fuel + 1) text = some (item :: items, rest) := by
  simp [first, comma, others]

/-- The key, the colon and the value at the front of a text. -/
def EntryAt (fuel : Nat) (text : List Char) (entry : Option String × Value) (behind : List Char) : Prop :=
  ∃ inner middle tail, skipSpaces text = '"' :: inner ∧ string? inner = some (entry.1, middle) ∧
    skipSpaces middle = ':' :: tail ∧ value? fuel tail = some (entry.2, behind)

theorem entries?_last {entry : Option String × Value} (first : EntryAt fuel text entry behind)
    (closes : skipSpaces behind = '\x7d' :: rest) : entries? (fuel + 1) text = some ([entry], rest) := by
  obtain ⟨inner, middle, tail, begins, key, colon, value⟩ := first
  simp [begins, key, colon, value, closes]

theorem entries?_more {entry : Option String × Value} {more : List Char} (first : EntryAt fuel text entry behind)
    (comma : skipSpaces behind = ',' :: more) (others : entries? fuel more = some (entries, rest)) :
    entries? (fuel + 1) text = some (entry :: entries, rest) := by
  obtain ⟨inner, middle, tail, begins, key, colon, value⟩ := first
  simp [begins, key, colon, value, comma, others]

end Steps

theorem endsNumber_cons {c : Char} (digit : c.isDigit = false) (others : c ≠ '.' ∧ c ≠ 'e' ∧ c ≠ 'E')
    (rest : List Char) : EndsNumber (c :: rest) := by
  intro first same
  cases same
  exact ⟨digit, others⟩

theorem endsNumber_gap (spaces : Gap gap) (ends : EndsNumber rest) : EndsNumber (gap ++ rest) := by
  cases gap with
  | nil => exact ends
  | cons c gap =>
    have space := spaces c List.mem_cons_self
    simp only [isSpace, Bool.or_eq_true, beq_iff_eq] at space
    rcases space with ((rfl | rfl) | rfl) | rfl
    all_goals exact endsNumber_cons rfl (by decide) _

/-- An array that has items does not look as if it were empty. -/
theorem SpellsItems.opens {items : List Value} (spells : SpellsItems items body) (rest tail : List Char) :
    skipSpaces (body ++ rest) ≠ ']' :: tail := by
  have opens {item : Value} {before body : List Char} (leading : Gap before) (spells : Spells item body)
      (rest : List Char) : skipSpaces (before ++ (body ++ rest)) ≠ ']' :: tail := by
    obtain ⟨c, inner, rfl, _, bracket, _⟩ := spells.head
    rw [spells.begins leading]
    exact fun same => bracket (List.cons.inj same).1
  cases spells with
  | last leading spells trailing =>
    rw [List.append_assoc, List.append_assoc]
    exact opens leading spells _
  | more leading spells trailing others =>
    rw [List.append_assoc, List.append_assoc]
    exact opens leading spells _

theorem SpellsEntry.begins {entry : Option String × Value} (spells : SpellsEntry entry body) (spaces : Gap gap)
    (rest : List Char) : skipSpaces (gap ++ (body ++ rest)) = body ++ rest := by
  cases spells
  rw [skipSpaces_gap spaces, List.cons_append, skipSpaces_solid rfl]

theorem SpellsEntries.opens {entries : List (Option String × Value)} (spells : SpellsEntries entries body)
    (rest tail : List Char) : skipSpaces (body ++ rest) ≠ '\x7d' :: tail := by
  have opens {entry : Option String × Value} {before body : List Char} (leading : Gap before)
      (spells : SpellsEntry entry body) (rest : List Char) :
      skipSpaces (before ++ (body ++ rest)) ≠ '\x7d' :: tail := by
    rw [spells.begins leading]
    cases spells
    exact nofun
  cases spells with
  | last leading spells trailing =>
    rw [List.append_assoc, List.append_assoc]
    exact opens leading spells _
  | more leading spells trailing others =>
    rw [List.append_assoc, List.append_assoc]
    exact opens leading spells _

mutual
/-- A spelled value is read with any spaces before it and any rest behind it that does not go on with a number. -/
theorem Spells.read {value : Value} {body rest text : List Char} {fuel : Nat} (spells : Spells value body)
    (ends : EndsNumber rest) (enough : 2 * body.length ≤ fuel) (begins : skipSpaces text = body ++ rest) :
    value? fuel text = some (value, rest) := by
  -- on the derivation; a bracket takes two steps of the fuel and stands at both ends of what it holds
  obtain ⟨fuel, rfl⟩ : ∃ less, fuel = less + 1 := by
    obtain ⟨_, _, rfl, _⟩ := spells.head
    exact Nat.exists_eq_add_one.mpr (by rw [List.length_cons] at enough; omega)
  match spells with
  | .null | .yes | .no =>
    rw [value?, begins]
    rfl
  | .number number =>
    obtain ⟨c, tail, rfl, digit⟩ := number.head
    rw [value?_number digit begins]
    exact number.read ends
  | .negative number =>
    rw [value?, begins]
    exact number.read ends
  | .text spelled =>
    rw [List.cons_append, List.append_assoc] at begins
    exact value?_text begins (string?_eq_some_iff.mpr ⟨_, _, rfl, spelled, rfl⟩)
  | .emptyArray spaces =>
    rw [List.cons_append, List.append_assoc] at begins
    exact value?_emptyArray begins (skipSpaces_mark spaces rfl rest)
  | .array items =>
    rw [List.cons_append, List.append_assoc] at begins
    apply value?_array begins (items.opens _)
    apply items.read
    simp only [List.length_cons, List.length_append] at enough
    omega
  | .emptyObject spaces =>
    rw [List.cons_append, List.append_assoc] at begins
    exact value?_emptyObject begins (skipSpaces_mark spaces rfl rest)
  | .object entries =>
    rw [List.cons_append, List.append_assoc] at begins
    apply value?_object begins (entries.opens _)
    apply entries.read
    simp only [List.length_cons, List.length_append] at enough
    omega
termination_by structural spells

theorem SpellsItems.read {items : List Value} {body rest : List Char} {fuel : Nat} (spells : SpellsItems items body)
    (enough : 2 * body.length + 1 ≤ fuel) : items? fuel (body ++ ']' :: rest) = some (items, rest) := by
  obtain ⟨fuel, rfl⟩ := Nat.exists_eq_add_one.mpr (Nat.lt_of_lt_of_le (Nat.succ_pos _) enough)
  match spells with
  | .last leading spells trailing =>
    rw [List.append_assoc, List.append_assoc]
    have ends := endsNumber_gap trailing (endsNumber_cons (c := ']') rfl (by decide) rest)
    apply items?_last (spells.read ends _ (spells.begins leading _)) (skipSpaces_mark trailing rfl rest)
    simp only [List.length_append] at enough
    omega
  | .more leading spells trailing items =>
    rw [List.append_assoc, List.append_assoc, List.append_assoc]
    have ends (rest : List Char) := endsNumber_gap trailing (endsNumber_cons (c := ',') rfl (by decide) rest)
    simp only [List.length_cons, List.length_append] at enough
    apply items?_more (spells.read (ends _) _ (spells.begins leading _)) (skipSpaces_mark trailing rfl _) (items.read _)
    · omega
    · omega
termination_by structural spells

theorem SpellsEntries.read {entries : List (Option String × Value)} {body rest : List Char} {fuel : Nat}
    (spells : SpellsEntries entries body) (enough : 2 * body.length + 1 ≤ fuel) :
    entries? fuel (body ++ '\x7d' :: rest) = some (entries, rest) := by
  obtain ⟨fuel, rfl⟩ := Nat.exists_eq_add_one.mpr (Nat.lt_of_lt_of_le (Nat.succ_pos _) enough)
  match spells with
  | .last leading spells trailing =>
    rw [List.append_assoc, List.append_assoc]
    have ends := endsNumber_gap trailing (endsNumber_cons (c := '\x7d') rfl (by decide) rest)
    apply entries?_last (spells.read ends _ (spells.begins leading _)) (skipSpaces_mark trailing rfl rest)
    simp only [List.length_append] at enough
    omega
  | .more leading spells trailing entries =>
    rw [List.append_assoc, List.append_assoc, List.append_assoc]
    have ends (rest : List Char) := endsNumber_gap trailing (endsNumber_cons (c := ',') rfl (by decide) rest)
    simp only [List.length_cons, List.length_append] at enough
    apply entries?_more (spells.read (ends _) _ (spells.begins leading _)) (skipSpaces_mark trailing rfl _) (entries.read _)
    · omega
    · omega
termination_by structural spells

theorem SpellsEntry.read {entry : Option String × Value} {body rest text : List Char} {fuel : Nat}
    (spells : SpellsEntry entry body) (ends : EndsNumber rest) (enough : 2 * body.length ≤ fuel)
    (begins : skipSpaces text = body ++ rest) : EntryAt fuel text entry rest := by
  match spells with
  | @SpellsEntry.mk _ _ _ before after body spelled trailing leading spells =>
    simp only [List.cons_append, List.append_assoc] at begins
    have colon := skipSpaces_mark (c := ':') trailing rfl (after ++ (body ++ rest))
    refine ⟨_, _, _, begins, string?_eq_some_iff.mpr ⟨_, _, rfl, spelled, rfl⟩, colon, ?_⟩
    apply spells.read ends _ (spells.begins leading rest)
    simp only [List.length_cons, List.length_append] at enough
    omega
termination_by structural spells
end

theorem SpellsItems.spaced {items : List Value} (spells : SpellsItems items body) (spaces : Gap gap) :
    SpellsItems items (gap ++ body) := by
  cases spells with
  | last leading spells trailing =>
    rw [← List.append_assoc]
    exact .last (List.forall_mem_append.mpr ⟨spaces, leading⟩) spells trailing
  | more leading spells trailing others =>
    rw [← List.append_assoc]
    exact .more (List.forall_mem_append.mpr ⟨spaces, leading⟩) spells trailing others

theorem SpellsEntries.spaced {entries : List (Option String × Value)} (spells : SpellsEntries entries body)
    (spaces : Gap gap) : SpellsEntries entries (gap ++ body) := by
  cases spells with
  | last leading spells trailing =>
    rw [← List.append_assoc]
    exact .last (List.forall_mem_append.mpr ⟨spaces, leading⟩) spells trailing
  | more leading spells trailing others =>
    rw [← List.append_assoc]
    exact .more (List.forall_mem_append.mpr ⟨spaces, leading⟩) spells trailing others

theorem of_literal? {word : List Char} {named : Value} (read : literal? word named text = some (value, rest)) :
    value = named ∧ text = word ++ rest := by
  obtain ⟨begins, same⟩ := Option.ite_none_right_eq_some.mp read
  cases same
  exact ⟨rfl, List.prefix_iff_eq_append.mp (List.isPrefixOf_iff_prefix.mp begins) |>.symm⟩

mutual
/-- Whatever is read is spelled by the grammar. -/
theorem spells_of_value? {fuel : Nat} {text rest : List Char} {value : Value}
    (read : value? fuel text = some (value, rest)) :
    ∃ gap body, Gap gap ∧ text = gap ++ (body ++ rest) ∧ Spells value body := by
  match fuel with
  | 0 => cases read
  | fuel + 1 =>
    -- the spaces in front are those that the reader skips, the body is what it goes through after them
    obtain ⟨gap, spaces, whole⟩ := exists_gap text
    have found : ∃ body, skipSpaces text = body ++ rest ∧ Spells value body := by
      rw [value?] at read
      split at read
      next inner begins =>
        obtain ⟨between, blank, inside⟩ := exists_gap inner
        split at read
        next closes =>
          cases read
          rw [closes] at inside
          exact ⟨'\x7b' :: (between ++ ['\x7d']), by rw [begins, inside]; simp, .emptyObject blank⟩
        next =>
          obtain ⟨⟨entries, _⟩, more, same⟩ := Option.map_eq_some_iff.mp read
          cases same
          obtain ⟨body, whole, spells⟩ := spells_of_entries? more
          rw [whole] at inside
          exact ⟨'\x7b' :: (between ++ body ++ ['\x7d']), by simp [begins, inside], .object (spells.spaced blank)⟩
      next inner begins =>
        obtain ⟨between, blank, inside⟩ := exists_gap inner
        split at read
        next closes =>
          cases read
          rw [closes] at inside
          exact ⟨'[' :: (between ++ [']']), by rw [begins, inside]; simp, .emptyArray blank⟩
        next =>
          obtain ⟨⟨items, _⟩, more, same⟩ := Option.map_eq_some_iff.mp read
          cases same
          obtain ⟨body, whole, spells⟩ := spells_of_items? more
          rw [whole] at inside
          exact ⟨'[' :: (between ++ body ++ [']']), by simp [begins, inside], .array (spells.spaced blank)⟩
      next inner begins =>
        obtain ⟨⟨text, _⟩, string, same⟩ := Option.map_eq_some_iff.mp read
        cases same
        obtain ⟨units, body, rfl, spelled, rfl⟩ := string?_eq_some_iff.mp string
        exact ⟨'"' :: (body ++ ['"']), by simp [begins], .text spelled⟩
      next inner begins =>
        obtain ⟨body, rfl, number⟩ := unsigned_of_read read
        exact ⟨'-' :: body, begins, .negative number⟩
      next inner begins =>
        obtain ⟨rfl, rfl⟩ := of_literal? read
        exact ⟨_, begins, .null⟩
      next inner begins =>
        obtain ⟨rfl, rfl⟩ := of_literal? read
        exact ⟨_, begins, .yes⟩
      next inner begins =>
        obtain ⟨rfl, rfl⟩ := of_literal? read
        exact ⟨_, begins, .no⟩
      next =>
        obtain ⟨body, begins, number⟩ := unsigned_of_read read
        exact ⟨body, begins, .number number⟩
    obtain ⟨body, begins, spells⟩ := found
    exact ⟨gap, body, spaces, by rw [← begins]; exact whole, spells⟩

theorem spells_of_items? {fuel : Nat} {text rest : List Char} {items : List Value}
    (read : items? fuel text = some (items, rest)) : ∃ body, text = body ++ ']' :: rest ∧ SpellsItems items body := by
  match fuel with
  | 0 => cases read
  | fuel + 1 =>
    obtain ⟨⟨item, behind⟩, first, onward⟩ := Option.bind_eq_some_iff.mp read
    obtain ⟨before, body, leading, rfl, spells⟩ := spells_of_value? first
    obtain ⟨after, trailing, last⟩ := exists_gap behind
    dsimp only at onward
    split at onward
    next closes =>
      cases onward
      rw [closes] at last
      exact ⟨before ++ (body ++ after), by rw [last]; simp, .last leading spells trailing⟩
    next tail comma =>
      obtain ⟨⟨others, _⟩, more, same⟩ := Option.bind_eq_some_iff.mp onward
      cases same
      obtain ⟨rest, rfl, items⟩ := spells_of_items? more
      rw [comma] at last
      exact ⟨before ++ (body ++ (after ++ ',' :: rest)), by rw [last]; simp, .more leading spells trailing items⟩
    next => cases onward

theorem spells_of_entries? {fuel : Nat} {text rest : List Char} {entries : List (Option String × Value)}
    (read : entries? fuel text = some (entries, rest)) :
    ∃ body, text = body ++ '\x7d' :: rest ∧ SpellsEntries entries body := by
  match fuel with
  | 0 => cases read
  | fuel + 1 =>
    obtain ⟨before, leading, front⟩ := exists_gap text
    rw [entries?] at read
    split at read
    next inner begins =>
      obtain ⟨⟨key, behindKey⟩, string, keyed⟩ := Option.bind_eq_some_iff.mp read
      obtain ⟨units, name, rfl, spelled, rfl⟩ := string?_eq_some_iff.mp string
      obtain ⟨beforeColon, blank, middle⟩ := exists_gap behindKey
      dsimp only at keyed
      split at keyed
      next tail colon =>
        obtain ⟨⟨value, behind⟩, first, onward⟩ := Option.bind_eq_some_iff.mp keyed
        obtain ⟨afterColon, body, spaces, rfl, spells⟩ := spells_of_value? first
        have entry := SpellsEntry.mk spelled blank spaces spells
        obtain ⟨after, trailing, last⟩ := exists_gap behind
        rw [begins] at front
        rw [colon] at middle
        dsimp only at onward
        split at onward
        next closes =>
          cases onward
          rw [closes] at last
          exact ⟨_, by rw [front, middle, last]; simp, .last leading entry trailing⟩
        next tail comma =>
          obtain ⟨⟨others, _⟩, more, same⟩ := Option.bind_eq_some_iff.mp onward
          cases same
          obtain ⟨rest, rfl, entries⟩ := spells_of_entries? more
          rw [comma] at last
          exact ⟨_, by rw [front, middle, last]; simp, .more leading entry trailing entries⟩
        next => cases onward
      next => cases keyed
    next => cases read
end

/-- The text spells this value, with any spaces around it. -/
def Document (value : Value) (text : String) : Prop :=
  ∃ before body after, Gap before ∧ Spells value body ∧ Gap after ∧ text.toList = before ++ (body ++ after)

theorem read?_eq_some_iff {text : String} : read? text = some value ↔ Document value text := by
  constructor
  · intro read
    unfold read? at read
    dsimp only at read
    split at read
    next found rest first =>
      obtain ⟨blank, same⟩ := Option.ite_none_right_eq_some.mp read
      cases same
      obtain ⟨before, body, leading, whole, spells⟩ := spells_of_value? first
      obtain ⟨after, trailing, last⟩ := exists_gap rest
      rw [List.isEmpty_iff.mp blank, List.append_nil] at last
      subst last
      exact ⟨before, body, _, leading, spells, trailing, whole⟩
    next => cases read
  · intro document
    obtain ⟨before, body, after, leading, spells, trailing, whole⟩ := document
    have ends : EndsNumber after := List.append_nil after ▸ endsNumber_gap trailing nofun
    have blank : skipSpaces after = [] := List.append_nil after ▸ skipSpaces_gap trailing []
    have value : value? (2 * text.toList.length + 2) text.toList = some (value, after) := by
      rw [whole]
      apply spells.read ends _ (spells.begins leading after)
      simp only [List.length_append]
      omega
    simp [read?, value, blank]

end QuorumWarden.Json
