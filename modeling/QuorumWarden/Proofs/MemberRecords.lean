import Mathlib
import QuorumWarden.Catalog.MemberRecord
import QuorumWarden.Proofs.JsonWriting

/-! Members as JSON records. What is written is read back, and every text that is read as a member spells a record of
that member, in one of the two forms that a record may take. -/

namespace QuorumWarden

namespace Json

variable {names : List String} {values : List Value} {entries : List (Option String × Value)}

/-- An object in which each of the names has its value and occurs only once, in any order and among entries of other
names, or an array of the values in their order. -/
inductive Record (names : List String) (values : List Value) : Value → Prop where
  | object {entries : List (Option String × Value)} (readable : ∀ entry ∈ entries, entry.1 ≠ none)
      (occur : (entries.filter fun entry => names.any (entry.1 == some ·)).Perm ((names.map some).zip values)) :
      Record names values (.object entries)
  | array : Record names values (.array values)

/-- What a record holds under a name, unless it holds more than one thing. -/
def occurrence? (entries : List (Option String × Value)) (name : String) : Option Field :=
  match entries.filter (·.1 == some name) with
  | [] => some .absent
  | [(_, value)] => some (.present value)
  | _ => none

theorem fields?_object : fields? names (.object entries) =
    if entries.any (·.1.isNone) then none else names.mapM (occurrence? entries) := rfl

theorem occurrence?_eq_present_iff {name : String} {value : Value} :
    occurrence? entries name = some (.present value) ↔ entries.filter (·.1 == some name) = [(some name, value)] := by
  unfold occurrence?
  split
  next none => simp [none]
  next key found one =>
    have named : key = some name := by
      have member : (key, found) ∈ entries.filter (·.1 == some name) := one ▸ List.mem_singleton_self _
      simpa using (List.mem_filter.mp member).2
    simp [one, named]
  next _ several =>
    constructor
    · exact nofun
    · intro one
      exact absurd one (several _ _)

theorem filter_filter_or {α : Type} {p q : α → Bool} {list : List α} :
    (list.filter fun item => p item || q item).filter p = list.filter p := by
  rw [List.filter_filter]
  apply List.filter_congr
  intro item _
  cases p item <;> rfl

theorem filter_or_perm {α : Type} {p q : α → Bool} {list : List α} (apart : ∀ item ∈ list, p item = true → q item = false) :
    (list.filter fun item => p item || q item).Perm (list.filter p ++ list.filter q) := by
  have parts := (List.filter_append_perm p (list.filter fun item => p item || q item)).symm
  rw [filter_filter_or, List.filter_filter] at parts
  have second : list.filter (fun item => !p item && (p item || q item)) = list.filter q := by
    apply List.filter_congr
    intro item member
    cases chosen : p item with
    | false => rfl
    | true => exact (apart item member chosen).symm
  rwa [second] at parts

theorem mapM_occurrence?_iff (distinct : names.Nodup) (enough : values.length = names.length) :
    names.mapM (occurrence? entries) = some (values.map .present) ↔
      (entries.filter fun entry => names.any (entry.1 == some ·)).Perm ((names.map some).zip values) := by
  induction names generalizing values with
  | nil => simp [List.length_eq_zero_iff.mp enough]
  | cons name names ih =>
    obtain ⟨value, values, rfl⟩ := List.exists_cons_of_length_eq_add_one enough
    obtain ⟨fresh, distinct⟩ := List.nodup_cons.mp distinct
    have rest := ih distinct (Nat.succ.inj enough)
    -- no entry has both this name and one of the others, so that the entries and the values split alike
    have apart : ∀ entry ∈ entries, (entry.1 == some name) = true → names.any (entry.1 == some ·) = false := by
      intro entry _ named
      rw [beq_iff_eq.mp named, List.any_eq_false]
      intro other member same
      exact fresh (Option.some.inj (beq_iff_eq.mp same) ▸ member)
    have parts := filter_or_perm apart
    have others : ((names.map some).zip values).filter (·.1 == some name) = [] := by
      apply List.filter_eq_nil_iff.mpr
      intro entry member named
      obtain ⟨other, listed, same⟩ := List.mem_map.mp (List.of_mem_zip member).1
      exact fresh (Option.some.inj (same.trans (beq_iff_eq.mp named)) ▸ listed)
    rw [List.mapM_cons]
    simp only [List.any_cons, List.map_cons, List.zip_cons_cons]
    constructor
    · intro found
      obtain ⟨field, first, found⟩ := Option.bind_eq_some_iff.mp found
      obtain ⟨fields, more, same⟩ := Option.bind_eq_some_iff.mp found
      obtain ⟨rfl, rfl⟩ := List.cons.inj (Option.some.inj same)
      rw [occurrence?_eq_present_iff.mp first] at parts
      exact parts.trans ((rest.mp more).cons _)
    · intro occur
      have one : entries.filter (·.1 == some name) = [(some name, value)] := by
        apply List.perm_singleton.mp
        have picked := occur.filter (·.1 == some name)
        rwa [filter_filter_or, List.filter_cons, if_pos (beq_self_eq_true (some name)), others] at picked
      rw [one] at parts
      have more := rest.mpr (parts.symm.trans occur).cons_inv
      rw [occurrence?_eq_present_iff.mpr one, more]
      rfl

theorem fields?_eq_present_iff (distinct : names.Nodup) (enough : values.length = names.length) {tree : Value} :
    fields? names tree = some (values.map .present) ↔ Record names values tree := by
  have readable {entries : List (Option String × Value)} :
      ¬entries.any (·.1.isNone) = true ↔ ∀ entry ∈ entries, entry.1 ≠ none := by
    simp only [List.any_eq_true, not_exists, not_and, Option.isNone_iff_eq_none, ne_eq]
  constructor
  · intro read
    cases tree with
    | object entries =>
      obtain ⟨keys, occur⟩ := Option.ite_none_left_eq_some.mp (fields?_object ▸ read)
      exact .object (readable.mp keys) ((mapM_occurrence?_iff distinct enough).mp occur)
    | array items =>
      obtain ⟨_, same⟩ := Option.ite_none_right_eq_some.mp read
      have full : names.length - items.length = 0 := by
        by_contra more
        have absent : Field.absent ∈ values.map .present := by
          rw [← Option.some.inj same]
          exact List.mem_append_right _ (List.mem_replicate.mpr ⟨more, rfl⟩)
        obtain ⟨_, _, present⟩ := List.mem_map.mp absent
        cases present
      rw [full, List.replicate_zero, List.append_nil, Option.some.injEq] at same
      obtain rfl := List.map_injective_iff.mpr (fun _ _ => Field.present.inj) same
      exact .array
    | null | bool | integer | nonInteger | text => cases read
  · intro record
    cases record with
    | object keys occur =>
      rw [fields?_object, if_neg (readable.mpr keys)]
      exact (mapM_occurrence?_iff distinct enough).mpr occur
    | array => simp [fields?, enough]

theorem Field.required_eq_some_iff {α : Type} {decoder : Decoder α} {field : Field} {found : α} :
    field.required decoder = some found ↔ ∃ value, field = .present value ∧ decoder value = some found := by
  cases field with
  | absent => simp [required]
  | present value => simp [required]

theorem Decoder.int32_eq_some_iff {value : Value} {found : Int} :
    int32 value = some found ↔ value = .integer found ∧ Text.FitsInt32 found := by
  cases value with
  | integer n =>
    simp only [int32, Option.ite_none_right_eq_some, Option.some.injEq, Value.integer.injEq]
    constructor
    · intro read
      obtain ⟨fits, rfl⟩ := read
      exact ⟨rfl, fits⟩
    · intro read
      obtain ⟨rfl, fits⟩ := read
      exact ⟨fits, rfl⟩
  | _ => simp [int32]

theorem Decoder.text_eq_some_iff {value : Value} {found : String} :
    text value = some found ↔ value = .text (some found) := by
  cases value <;> simp [text]

theorem Decoder.bool_eq_some_iff {value : Value} {found : Bool} : bool value = some found ↔ value = .bool found := by
  cases value <;> simp [bool]

end Json

namespace Role

/-- A role is recorded by its name, or as an object with its name for the only key and nothing under it. -/
inductive Recorded (role : Role) : Json.Value → Prop where
  | name : Recorded role (.text (some role.text))
  | key : Recorded role (.object [(some role.text, .null)])

theorem named_eq_some_iff {name : String} {role : Role} : decoder.named name = some role ↔ name = role.text := by
  constructor
  · intro read
    unfold decoder.named at read
    split at read <;> cases read <;> rfl
  · intro named
    subst named
    cases role <;> rfl

theorem decoder_eq_some_iff {tree : Json.Value} {role : Role} : decoder tree = some role ↔ role.Recorded tree := by
  constructor
  · intro read
    unfold decoder at read
    split at read
    next => exact named_eq_some_iff.mp read ▸ .name
    next => exact named_eq_some_iff.mp read ▸ .key
    next => cases read
  · intro recorded
    cases recorded with
    | name | key => exact named_eq_some_iff.mpr rfl

end Role

namespace Member

def fieldNames : List String := ["id", "hostname", "region", "active", "role"]

/-- The tree is a record of the member, in either form that records and roles have. -/
def Recorded (member : Member) (tree : Json.Value) : Prop :=
  ∃ role, member.role.Recorded role ∧ Json.Record fieldNames
    [.integer member.id, .text (some member.hostname), .text (some member.region), .bool member.active, role] tree

theorem decoder_eq_some_iff {tree : Json.Value} {member : Member} :
    decoder tree = some member ↔ Text.FitsInt32 member.id ∧ member.Recorded tree := by
  have distinct : fieldNames.Nodup := by decide
  constructor
  · intro read
    obtain ⟨fields, found, read⟩ := Option.bind_eq_some_iff.mp read
    split at read
    next =>
      simp only [Option.bind_eq_bind, Option.bind_eq_some_iff, Json.Field.required_eq_some_iff,
        Json.Decoder.int32_eq_some_iff, Json.Decoder.text_eq_some_iff, Json.Decoder.bool_eq_some_iff,
        Role.decoder_eq_some_iff, Option.some.injEq] at read
      obtain ⟨id, ⟨_, rfl, rfl, fits⟩, hostname, ⟨_, rfl, rfl⟩, region, ⟨_, rfl, rfl⟩, active, ⟨_, rfl, rfl⟩, role,
        ⟨tree, rfl, recorded⟩, rfl⟩ := read
      exact ⟨fits, tree, recorded, (Json.fields?_eq_present_iff distinct rfl).mp found⟩
    next => cases read
  · intro recorded
    obtain ⟨fits, role, recorded, record⟩ := recorded
    apply Option.bind_eq_some_iff.mpr ⟨_, (Json.fields?_eq_present_iff distinct rfl).mpr record, _⟩
    simp only [List.map_cons, List.map_nil, Option.bind_eq_bind, Option.bind_eq_some_iff,
      Json.Field.required_eq_some_iff, Json.Decoder.int32_eq_some_iff, Json.Decoder.text_eq_some_iff,
      Json.Decoder.bool_eq_some_iff, Role.decoder_eq_some_iff, Option.some.injEq]
    exact ⟨_, ⟨_, rfl, rfl, fits⟩, _, ⟨_, rfl, rfl⟩, _, ⟨_, rfl, rfl⟩, _, ⟨_, rfl, rfl⟩, _, ⟨_, rfl, recorded⟩, rfl⟩

theorem ofJson?_eq_some_iff {text : String} {member : Member} :
    ofJson? text = some member ↔ Text.FitsInt32 member.id ∧ ∃ tree, Json.Document tree text ∧ member.Recorded tree := by
  rw [ofJson?, Json.decode?, Option.bind_eq_some_iff]
  constructor
  · intro read
    obtain ⟨tree, document, decoded⟩ := read
    obtain ⟨fits, recorded⟩ := decoder_eq_some_iff.mp decoded
    exact ⟨fits, tree, Json.read?_eq_some_iff.mp document, recorded⟩
  · intro spelled
    obtain ⟨fits, tree, document, recorded⟩ := spelled
    exact ⟨tree, Json.read?_eq_some_iff.mpr document, decoder_eq_some_iff.mpr ⟨fits, recorded⟩⟩

/-- The record that is written, an object with the fields in their order and the role by its name. -/
def tree (member : Member) : Json.Value :=
  .object [(some "id", .integer member.id), (some "hostname", .text (some member.hostname)),
    (some "region", .text (some member.region)), (some "active", .bool member.active),
    (some "role", .text (some member.role.text))]

theorem spells_toJson (member : Member) : Json.Spells member.tree member.toJson.toList := by
  apply Json.spells_object
  exact .cons (Json.spellsEntry_field _ (Json.spells_integer _)) (.cons (Json.spellsEntry_field _ (Json.spells_quoted _))
    (.cons (Json.spellsEntry_field _ (Json.spells_quoted _)) (.cons (Json.spellsEntry_field _ (Json.spells_bool _))
      (.cons (Json.spellsEntry_field _ (Json.spells_quoted _)) .nil))))

theorem recorded_tree (member : Member) : member.Recorded member.tree := by
  refine ⟨_, .name, .object (by simp) ?_⟩
  simp [fieldNames]

theorem ofJson?_toJson {member : Member} (fits : Text.FitsInt32 member.id) : ofJson? member.toJson = some member := by
  have document : Json.Document member.tree member.toJson := by
    refine ⟨[], member.toJson.toList, [], nofun, member.spells_toJson, nofun, ?_⟩
    rw [List.nil_append, List.append_nil]
  exact ofJson?_eq_some_iff.mpr ⟨fits, _, document, member.recorded_tree⟩

/-- Whatever a member is, its record is read back as the same member. A text is read as a member exactly if it spells
a record of it, and what is written for that member takes the place of the text. -/
theorem records_survive :
    (∀ member, Text.FitsInt32 member.id →
      Json.Spells member.tree member.toJson.toList ∧ ofJson? member.toJson = some member) ∧
    (∀ text member, ofJson? text = some member ↔
      Text.FitsInt32 member.id ∧ ∃ tree, Json.Document tree text ∧ member.Recorded tree) ∧
    (∀ text member, ofJson? text = some member →
      ∃ again, ofJson? member.toJson = some again ∧ again = member ∧ again.toJson = member.toJson) := by
  refine ⟨?_, fun _ _ => ofJson?_eq_some_iff, ?_⟩
  · intro member fits
    exact ⟨member.spells_toJson, ofJson?_toJson fits⟩
  · intro text member read
    obtain ⟨fits, _⟩ := ofJson?_eq_some_iff.mp read
    exact ⟨member, ofJson?_toJson fits, rfl, rfl⟩

example : ofJson? "[7,\"host-7\",\"default\",true,\"standby\"]" = some ⟨7, "host-7", "default", true, .standby⟩ := by cbv

private def shuffled : String :=
  " \x7b\"role\":\x7b\"standby\":null\x7d,\"more\":[-0,\x7b\"id\":\"\\ud83d\"\x7d],\"active\":true," ++
    "\"region\":\"\\u0041\\/\",\n\"hostname\":\"\\ud83d\\ude00\",\"id\":-5\x7d "

/-- A name of escaped characters with the lowest number, and a record in another order, with a role for a key, with an
entry that is passed over although no text could be made of it, and with needless escapes and spaces. -/
theorem odd_records_survive :
    Text.FitsInt32 (-2147483648) ∧
    ofJson? (toJson ⟨-2147483648, "\"\\\n\x01😀", "", false, .unknown⟩) =
      some ⟨-2147483648, "\"\\\n\x01😀", "", false, .unknown⟩ ∧
    ofJson? shuffled = some ⟨-5, "😀", "A/", true, .standby⟩ ∧
    ofJson? (toJson ⟨-5, "😀", "A/", true, .standby⟩) = some ⟨-5, "😀", "A/", true, .standby⟩ := by
  obtain ⟨kept, _, again⟩ := records_survive
  have read : ofJson? shuffled = some ⟨-5, "😀", "A/", true, .standby⟩ := by cbv
  obtain ⟨_, readAgain, rfl, _⟩ := again _ _ read
  exact ⟨by decide, (kept _ (by decide)).2, read, readAgain⟩

end Member

end QuorumWarden
