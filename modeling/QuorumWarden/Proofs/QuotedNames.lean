import Mathlib
import QuorumWarden.Postgres.Statement

/-! How a database server divides a statement into words, signs and quoted names. Whatever a database is called, its
name stays within its quotes. -/

namespace QuorumWarden.Postgres

inductive Lexeme where
  | word (text : String)
  | name (text : String)
  | sign (c : Char)
  deriving DecidableEq, Repr

/-- What has been read of the lexeme that is under way: nothing, a part of a word, a part of a name in quotes, or a
name with a quote behind it, which ends the name unless another one follows. -/
inductive Pending where
  | blank
  | word (letters : List Char)
  | quoted (letters : List Char)
  | quote (letters : List Char)
  deriving DecidableEq, Repr

namespace Pending

def isLetter (c : Char) : Bool := c.isAlpha || c = '_'

/-- A character that does not go on with a lexeme begins the next one. -/
def opened? (c : Char) : Option (List Lexeme × Pending) :=
  if c = '"' then some ([], quoted [])
  else if c = ' ' ∨ c = '\t' ∨ c = '\n' ∨ c = '\r' then some ([], blank)
  else if isLetter c then some ([], word [c])
  else if c ∈ [';', ',', '.', '(', ')', '='] then some ([.sign c], blank)
  else none

/-- The lexemes that end before the next character, and what is under way after it. -/
def next? : Pending → Char → Option (List Lexeme × Pending)
  | blank, c => opened? c
  | word letters, c =>
    if isLetter c ∨ c.isDigit then some ([], word (letters ++ [c]))
    else (opened? c).map fun (ended, pending) => (.word (String.ofList letters) :: ended, pending)
  | quoted letters, c =>
    if c = '"' then some ([], quote letters)
    else if c = '\x00' then none
    else some ([], quoted (letters ++ [c]))
  | quote letters, c =>
    if c = '"' then some ([], quoted (letters ++ [c]))
    else (opened? c).map fun (ended, pending) => (.name (String.ofList letters) :: ended, pending)

/-- The last lexeme. A name needs its closing quote. -/
def finished? : Pending → Option (List Lexeme)
  | blank => some []
  | word letters => some [.word (String.ofList letters)]
  | quoted _ => none
  | quote letters => some [.name (String.ofList letters)]

def readOn? (pending : Pending) : List Char → Option (List Lexeme × Pending)
  | [] => some ([], pending)
  | c :: rest => (pending.next? c).bind fun step => (step.2.readOn? rest).map (Prod.map (step.1 ++ ·) id)

variable {before between after : Pending} {front back : List Char} {early late : List Lexeme}

theorem readOn?_append (first : before.readOn? front = some (early, between))
    (second : between.readOn? back = some (late, after)) :
    before.readOn? (front ++ back) = some (early ++ late, after) := by
  induction front generalizing before early with
  | nil =>
    cases first
    exact second
  | cons c front ih =>
    obtain ⟨step, next, first⟩ := Option.bind_eq_some_iff.mp first
    obtain ⟨⟨lexemes, last⟩, read, same⟩ := Option.map_eq_some_iff.mp first
    cases same
    rw [List.cons_append, readOn?, next, Option.bind_some, ih read, List.append_assoc]
    rfl

/-- Doubled quotes are read as the quotes of the name, and none of them as its end. -/
theorem readOn?_doubled {name : List Char} (clean : '\x00' ∉ name) (letters : List Char) :
    (quoted letters).readOn? (doubled name) = some ([], quoted (letters ++ name)) := by
  induction name generalizing letters with
  | nil => rw [doubled, readOn?, List.append_nil]
  | cons c name ih =>
    obtain ⟨visible, clean⟩ := not_or.mp (mt List.mem_cons.mpr clean)
    have onward := ih clean (letters ++ [c])
    rw [List.append_assoc, List.singleton_append] at onward
    by_cases quotes : c = '"'
    · -- the first quote seems to end the name, and the second one takes that back
      subst quotes
      have twice : (quoted letters).readOn? ['"', '"'] = some ([], quoted (letters ++ ['"'])) := by rfl
      rw [doubled]
      exact readOn?_append twice onward
    · have once : (quoted letters).readOn? [c] = some ([], quoted (letters ++ [c])) := by
        simp [readOn?, next?, quotes, Ne.symm visible]
      rw [doubled]
      · exact readOn?_append once onward
      · exact quotes

end Pending

/-- The lexemes of a whole text. One with a string, a comment or any other sign in it has none. -/
def lexemes? (text : String) : Option (List Lexeme) :=
  (Pending.blank.readOn? text.toList).bind fun (lexemes, pending) => (pending.finished?).map (lexemes ++ ·)

/-- The lexemes of a statement that sets whether a database is read-only. -/
def readonlySetting (database : String) (enabled : Bool) : List Lexeme :=
  [.word "ALTER", .word "DATABASE", .name database, .word "SET", .word "default_transaction_read_only", .sign '=',
    .word (if enabled then "on" else "off")]

theorem toList_enclosed (start quote middle last : String) (inner : List Char) :
    (start ++ (quote ++ String.ofList inner ++ quote) ++ middle ++ last).toList =
      start.toList ++ (quote.toList ++ (inner ++ (quote.toList ++ (middle.toList ++ last.toList)))) := by
  simp only [String.toList_append, String.toList_ofList, List.append_assoc]

theorem lexemes?_setReadonly {database : String} (clean : '\x00' ∉ database.toList) (enabled : Bool) :
    lexemes? (setReadonly database enabled) = some (readonlySetting database enabled) := by
  have starts : Pending.blank.readOn? "ALTER DATABASE ".toList =
      some ([.word "ALTER", .word "DATABASE"], .blank) := by cbv
  have opens : Pending.blank.readOn? "\"".toList = some ([], .quoted []) := by rfl
  have closes : (Pending.quoted database.toList).readOn? "\"".toList = some ([], .quote database.toList) := by rfl
  have ends : (Pending.quote database.toList).readOn? [' '] =
      some ([.name (String.ofList database.toList)], .blank) := by rfl
  have sets : Pending.blank.readOn? "SET default_transaction_read_only = ".toList =
      some ([.word "SET", .word "default_transaction_read_only", .sign '='], .blank) := by cbv
  have flags : Pending.blank.readOn? (flagValue enabled).toList = some ([], .word (flagValue enabled).toList) := by
    cases enabled <;> cbv
  have middle : (Pending.quote database.toList).readOn? " SET default_transaction_read_only = ".toList = _ :=
    Pending.readOn?_append ends sets
  have read := Pending.readOn?_append starts (Pending.readOn?_append opens (Pending.readOn?_append
    (Pending.readOn?_doubled clean []) (Pending.readOn?_append closes (Pending.readOn?_append middle flags))))
  have text := toList_enclosed "ALTER DATABASE " "\"" " SET default_transaction_read_only = " (flagValue enabled)
    (doubled database.toList)
  unfold lexemes? setReadonly quoteIdentifier
  rw [text, read]
  simp only [Option.bind_some, Pending.finished?, Option.map_some, String.ofList_toList]
  cases enabled <;> rfl

theorem readonlySetting_injective {database other : String} {enabled flag : Bool}
    (same : readonlySetting database enabled = readonlySetting other flag) : database = other ∧ enabled = flag := by
  have names : database = other := Lexeme.name.inj (Option.some.inj (congrArg (·[2]?) same))
  have flags : (if enabled then "on" else "off") = if flag then "on" else "off" :=
    Lexeme.word.inj (Option.some.inj (congrArg (·[6]?) same))
  refine ⟨names, ?_⟩
  cases enabled <;> cases flag <;> simp_all

/-- What is sent to set whether a database is read-only holds one name, which is that of the database, and otherwise
what it always holds. So two statements are the same only for the same database and the same setting. -/
theorem setReadonly_names_database (host database : String) (enabled : Bool) (clean : '\x00' ∉ database.toList) :
    ∃ sent label, statement? (.setReadonly host database enabled) = some (sent, label) ∧
      sent.parameters = [] ∧ sent.prepared = false ∧ lexemes? sent.text = some (readonlySetting database enabled) ∧
      ∀ asked other flag again title, '\x00' ∉ other.toList →
        statement? (.setReadonly asked other flag) = some (again, title) →
          (again.text = sent.text ↔ other = database ∧ flag = enabled) := by
  refine ⟨_, _, rfl, rfl, rfl, lexemes?_setReadonly clean enabled, ?_⟩
  intro asked other flag again title alsoClean sends
  cases sends
  constructor
  · intro same
    apply readonlySetting_injective
    apply Option.some.inj
    rw [← lexemes?_setReadonly clean, ← lexemes?_setReadonly alsoClean]
    exact congrArg lexemes? same
  · intro same
    obtain ⟨rfl, rfl⟩ := same
    rfl

/-- A name that begins and ends with quotes and holds a statement of its own. -/
theorem statement_within_name :
    '\x00' ∉ "\"\"; ALTER DATABASE app SET default_transaction_read_only = off; \"".toList ∧
    ∃ sent label,
      statement? (.setReadonly "host-1" "\"\"; ALTER DATABASE app SET default_transaction_read_only = off; \"" true) =
        some (sent, label) ∧
      lexemes? sent.text = some [.word "ALTER", .word "DATABASE",
        .name "\"\"; ALTER DATABASE app SET default_transaction_read_only = off; \"", .word "SET",
        .word "default_transaction_read_only", .sign '=', .word "on"] ∧
      sent.text ≠ setReadonly "app" true := by
  have clean : '\x00' ∉ "\"\"; ALTER DATABASE app SET default_transaction_read_only = off; \"".toList := by decide
  obtain ⟨sent, label, sends, _, _, read, told⟩ := setReadonly_names_database "host-1" _ true clean
  refine ⟨clean, sent, label, sends, read, ?_⟩
  intro same
  obtain ⟨names, _⟩ := (told "host-1" "app" true _ _ (by decide) rfl).mp same.symm
  exact absurd names (by decide)

end QuorumWarden.Postgres
