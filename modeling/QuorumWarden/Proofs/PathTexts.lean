import QuorumWarden.Files.Path

/-! What the text of a path says of the path. Texts that are put together at slashes come apart there again, so the
paths of the directories above are the beginnings of the path. -/

namespace QuorumWarden

namespace Text

/-- What is put behind a text goes on its last stretch. -/
theorem splitList_append {separator : Char} {text : List Char} {ahead : List (List Char)} {last : List Char}
    (stretches : splitList separator text = ahead ++ [last]) (behind : List Char) :
    splitList separator (text ++ behind) = ahead ++ (splitList separator behind).modifyHead (last ++ ·) := by
  obtain ⟨next, others, found⟩ := List.exists_cons_of_ne_nil (splitList_ne_nil separator behind)
  rw [found, List.modifyHead_cons]
  induction text generalizing ahead last with
  | nil =>
    obtain ⟨rfl, rfl⟩ : ahead = [] ∧ last = [] := by cases ahead <;> simp_all [splitList]
    exact found
  | cons c text ih =>
    obtain ⟨stretch, rest, held⟩ := List.exists_cons_of_ne_nil (splitList_ne_nil separator text)
    rw [List.cons_append, splitList]
    rw [splitList] at stretches
    by_cases here : c = separator
    · rw [if_pos here] at stretches ⊢
      cases ahead with
      | nil => exact absurd (List.cons.inj stretches).2 (splitList_ne_nil separator text)
      | cons first ahead =>
        obtain ⟨rfl, onward⟩ := List.cons.inj stretches
        rw [ih onward, List.cons_append]
    · rw [if_neg here] at stretches ⊢
      simp only [held] at stretches
      cases ahead with
      | nil =>
        obtain ⟨rfl, rfl⟩ := List.cons.inj stretches
        rw [@ih [] stretch held]
        rfl
      | cons first ahead =>
        obtain ⟨rfl, rfl⟩ := List.cons.inj stretches
        rw [@ih (stretch :: ahead) last held]
        rfl

theorem not_mem_of_mem_splitList {separator : Char} {text stretch : List Char}
    (member : stretch ∈ splitList separator text) : separator ∉ stretch := by
  induction text generalizing stretch with
  | nil => simp_all [splitList]
  | cons c text ih =>
    rw [splitList] at member
    split at member
    · rcases List.mem_cons.mp member with rfl | later
      · exact List.not_mem_nil
      · exact ih later
    next different =>
      cases held : splitList separator text with
      | nil => exact absurd held (splitList_ne_nil separator text)
      | cons first others =>
        simp only [held, List.mem_cons] at member ih
        rcases member with rfl | later
        · have apart := ih (.inl rfl)
          simp only [List.mem_cons, not_or]
          exact ⟨fun same => different same.symm, apart⟩
        · exact ih (.inr later)

end Text

namespace Path

/-- A stretch that leads somewhere. -/
structure IsName (name : String) : Prop where
  undivided : '/' ∉ name.toList
  leads : leadsNowhere name = false

theorem IsName.ne_empty {name : String} (named : IsName name) : name ≠ "" := by
  rintro rfl
  cases named.leads

theorem pieces_ne_nil (path : String) : pieces path ≠ [] :=
  fun none => Text.splitList_ne_nil _ _ (List.map_eq_nil_iff.mp none)

theorem undivided_of_mem_pieces {path piece : String} (member : piece ∈ pieces path) : '/' ∉ piece.toList := by
  obtain ⟨stretch, split, rfl⟩ := List.mem_map.mp member
  rw [String.toList_ofList]
  exact Text.not_mem_of_mem_splitList split

theorem pieces_append {path : String} {ahead : List String} {last : String} (stretches : pieces path = ahead ++ [last])
    (behind : String) : pieces (path ++ behind) = ahead ++ (pieces behind).modifyHead (last ++ ·) := by
  obtain ⟨first, second, split, rfl, ends⟩ := List.map_eq_append_iff.mp stretches
  obtain ⟨final, rfl, rfl⟩ := List.map_eq_singleton_iff.mp ends
  rw [pieces, Text.split, String.toList_append, Text.splitList_append split, List.map_append]
  congr 1
  obtain ⟨stretch, others, found⟩ := List.exists_cons_of_ne_nil (Text.splitList_ne_nil '/' behind.toList)
  rw [pieces, Text.split, found, List.modifyHead_cons, List.map_cons, List.map_cons, List.modifyHead_cons,
    String.ofList_append]

theorem pieces_slash (path : String) : pieces ("/" ++ path) = "" :: pieces path := by
  rw [pieces, Text.split, String.toList_append]
  rfl

theorem intercalate_pieces (path : String) : "/".intercalate (pieces path) = path := by
  rw [← String.toList_inj, String.toList_intercalate, pieces, Text.split, List.map_map]
  have same : String.toList ∘ String.ofList = id := funext fun _ => String.toList_ofList
  rw [same, List.map_id]
  exact Text.intercalate_splitList '/' path.toList

theorem pieces_eq_singleton {name : String} (undivided : '/' ∉ name.toList) : pieces name = [name] := by
  cases held : pieces name with
  | nil => exact absurd held (pieces_ne_nil name)
  | cons first others =>
    have whole := intercalate_pieces name
    rw [held] at whole
    cases others with
    | nil => rw [← whole]; rfl
    | cons second others =>
      refine absurd ?_ undivided
      rw [← whole, String.intercalate_cons_cons, String.toList_append, String.toList_append]
      simp

theorem pieces_intercalate {stretches : List String} (some : stretches ≠ [])
    (undivided : ∀ stretch ∈ stretches, '/' ∉ stretch.toList) : pieces ("/".intercalate stretches) = stretches := by
  induction stretches with
  | nil => exact absurd rfl some
  | cons first others ih =>
    have alone : pieces first = [] ++ [first] := pieces_eq_singleton (undivided first List.mem_cons_self)
    cases others with
    | nil => exact alone
    | cons second others =>
      have onward := ih (List.cons_ne_nil _ _) fun stretch member => undivided stretch (List.mem_cons_of_mem _ member)
      rw [String.intercalate_cons_cons, String.append_assoc, pieces_append alone, pieces_slash, onward]
      simp

/-- What stands in a path ahead of a name that is joined to it. -/
def ahead (directory : String) : List String :=
  if isOpen directory then (pieces directory).dropLast else pieces directory

theorem pieces_join {name : String} (undivided : '/' ∉ name.toList) (directory : String) :
    pieces (join directory name) = ahead directory ++ [name] := by
  have alone := pieces_eq_singleton undivided
  rw [join, ahead]
  obtain ⟨init, last, split⟩ : ∃ init last, pieces directory = init ++ [last] :=
    ⟨_, _, (List.dropLast_concat_getLast (pieces_ne_nil directory)).symm⟩
  have ends : isOpen directory = (last == "") := by
    rw [isOpen, split, List.getLast?_concat]
    rfl
  rw [ends, split]
  by_cases vacant : last = ""
  · rw [if_pos (beq_iff_eq.mpr vacant), if_pos (beq_iff_eq.mpr vacant), pieces_append split, alone, vacant]
    simp
  · rw [if_neg (by simpa using vacant), if_neg (by simpa using vacant), String.append_assoc, pieces_append split,
      pieces_slash, alone]
    simp

theorem names_ahead (directory : String) : (ahead directory).filter (!leadsNowhere ·) = components directory := by
  rw [ahead, components]
  split
  next vacant =>
    obtain ⟨init, split⟩ := List.getLast?_eq_some_iff.mp (beq_iff_eq.mp vacant)
    rw [split, List.dropLast_concat, List.filter_append]
    exact (List.append_nil _).symm
  next => rfl

theorem isOpen_join {name : String} (named : IsName name) (directory : String) : isOpen (join directory name) = false := by
  rw [isOpen, pieces_join named.undivided, List.getLast?_concat]
  simpa using named.ne_empty

/-- A path goes on where another one ends. -/
theorem intercalate_append (first second : List String) :
    ∃ behind, "/".intercalate (first ++ second) = "/".intercalate first ++ behind := by
  induction first with
  | nil => exact ⟨_, String.empty_append.symm⟩
  | cons stretch first ih =>
    obtain ⟨behind, same⟩ := ih
    cases first with
    | nil =>
      cases second with
      | nil => exact ⟨"", String.append_empty.symm⟩
      | cons next second =>
        refine ⟨"/" ++ "/".intercalate (next :: second), ?_⟩
        rw [List.singleton_append, String.intercalate_cons_cons, String.append_assoc]
        rfl
    | cons next first =>
      refine ⟨behind, ?_⟩
      rw [List.cons_append, List.cons_append, String.intercalate_cons_cons, String.intercalate_cons_cons,
        ← List.cons_append, same]
      simp only [String.append_assoc]

/-- The names that a path leads along, by its stretches from the last one back to the first. -/
def names (stretches : List String) : List String := stretches.reverse.filter (!leadsNowhere ·)

/-- The path ends in a name that stands behind these other names. -/
def EndsIn (path : String) (front : List String) (name : String) : Prop :=
  ∃ above, (pieces path).reverse.dropWhile (· == "") = name :: above ∧ leadsNowhere name = false ∧ names above = front

/-- The last stretch is a single dot, whatever slashes are behind it. -/
def endsInDot (path : String) : Bool := ((pieces path).reverse.dropWhile (· == "")).head? == some "."

variable {name piece : String} {above : List String}

theorem names_passing (nowhere : leadsNowhere piece = true) : names (piece :: above) = names above := by
  simp [names, nowhere]

theorem names_climbing (leads : leadsNowhere piece = false) : names (piece :: above) = names above ++ [piece] := by
  simp [names, leads]

theorem names_dropWhile {passing : String → Bool} (nowhere : ∀ stretch, passing stretch = true → leadsNowhere stretch = true)
    (stretches : List String) : names (stretches.dropWhile passing) = names stretches := by
  induction stretches with
  | nil => rfl
  | cons piece above ih =>
    by_cases passed : passing piece = true
    · rw [List.dropWhile_cons_of_pos passed, ih, names_passing (nowhere piece passed)]
    · rw [List.dropWhile_cons_of_neg passed]

theorem components_eq (path : String) : components path = names ((pieces path).reverse.dropWhile (· == "")) := by
  rw [names_dropWhile fun stretch vacant => by rw [leadsNowhere, vacant, Bool.true_or], names, List.reverse_reverse,
    components]

theorem names_backwards (path : String) : names (backwards path) = components path := by
  rw [backwards, names_dropWhile fun _ nowhere => nowhere, names, List.reverse_reverse, components]

theorem EndsIn.components {path : String} {front : List String} (ends : EndsIn path front name) :
    components path = front ++ [name] := by
  obtain ⟨above, stretches, leads, rfl⟩ := ends
  rw [components_eq, stretches, names_climbing leads]

private theorem dropWhile_leadsNowhere {stretches : List String} (leads : leadsNowhere name = false)
    (found : stretches.dropWhile (· == "") = name :: above) : stretches.dropWhile leadsNowhere = name :: above := by
  induction stretches with
  | nil => cases found
  | cons piece rest ih =>
    by_cases vacant : piece = ""
    · subst vacant
      rw [List.dropWhile_cons_of_pos rfl] at found ⊢
      exact ih found
    · rw [List.dropWhile_cons_of_neg (by simpa using vacant)] at found
      obtain ⟨rfl, rfl⟩ := List.cons.inj found
      exact List.dropWhile_cons_of_neg (by simpa using leads)

theorem endsIn_of_stretches {path : String} (stretches : (pieces path).reverse.dropWhile (· == "") = name :: above)
    (noDot : name ≠ ".") : EndsIn path (names above) name := by
  have some : name ≠ "" := by
    have head := List.head_dropWhile_not (· == "") (l := (pieces path).reverse) (by rw [stretches]; simp)
    simpa [stretches] using head
  exact ⟨above, stretches, by simp [leadsNowhere, some, noDot], rfl⟩

theorem EndsIn.leads {path : String} {front : List String} (ends : EndsIn path front name) :
    leadsNowhere name = false := by
  obtain ⟨_, _, leads, _⟩ := ends
  exact leads

theorem pieces_behind (named : IsName name) (undivided : ∀ stretch ∈ above, '/' ∉ stretch.toList) :
    pieces ("/".intercalate (name :: above).reverse) = (name :: above).reverse := by
  refine pieces_intercalate (by simp) fun stretch member => ?_
  rcases List.mem_cons.mp (List.mem_reverse.mp member) with rfl | later
  · exact named.undivided
  · exact undivided stretch later

theorem endsIn_intercalate (named : IsName name) (undivided : ∀ stretch ∈ above, '/' ∉ stretch.toList) :
    EndsIn ("/".intercalate (name :: above).reverse) (names above) name := by
  refine ⟨above, ?_, named.leads, rfl⟩
  rw [pieces_behind named undivided, List.reverse_reverse, List.dropWhile_cons_of_neg (by simpa using named.ne_empty)]

/-- A path that leads anywhere ends in a name unless it ends in a dot. -/
theorem exists_endsIn {path : String} (noDot : endsInDot path = false) (leads : components path ≠ []) :
    ∃ name above, backwards path = name :: above ∧ EndsIn path (names above) name := by
  rw [components_eq] at leads
  have some : (pieces path).reverse.dropWhile (· == "") ≠ [] := fun none => leads (by rw [none]; rfl)
  obtain ⟨name, above, stretches⟩ := List.exists_cons_of_ne_nil some
  rw [endsInDot, stretches] at noDot
  have ends := endsIn_of_stretches stretches (by simpa using noDot)
  exact ⟨name, above, dropWhile_leadsNowhere ends.leads stretches, ends⟩

/-- A stretch that leads nowhere makes no directory of its own. -/
theorem ancestorsFrom_passing (nowhere : leadsNowhere piece = true) :
    ancestorsFrom (name :: piece :: above) = ancestorsFrom (name :: above) := by
  have parent : ofBackwards (piece :: above) = ofBackwards above := by
    rw [ofBackwards, List.dropWhile_cons_of_pos nowhere]
    rfl
  simp only [ancestorsFrom, parent, nowhere, Bool.true_or, if_true]

/-- Above a name is the directory that it is in. -/
theorem ancestorsFrom_climbing (leads : leadsNowhere name = false) (named : IsName piece)
    (undivided : ∀ stretch ∈ above, '/' ∉ stretch.toList) :
    ancestorsFrom (name :: piece :: above) =
      "/".intercalate (piece :: above).reverse :: ancestorsFrom (piece :: above) := by
  have parent : ofBackwards (piece :: above) = "/".intercalate (piece :: above).reverse := by
    rw [ofBackwards, List.dropWhile_cons_of_neg (by simp [named.leads])]
  have there : ("/".intercalate (piece :: above).reverse).isEmpty = false := by
    have apart := pieces_behind named undivided
    refine Bool.eq_false_iff.mpr fun none => ?_
    rw [String.isEmpty_iff.mp none, List.reverse_cons] at apart
    have vacant : some "" = some piece := (congrArg List.getLast? apart).trans List.getLast?_concat
    exact named.ne_empty (Option.some.inj vacant).symm
  simp only [ancestorsFrom, parent, leads, there, Bool.or_self, Bool.false_eq_true, if_false]

theorem endsIn_join (named : IsName name) (directory : String) :
    EndsIn (join directory name) (components directory) name := by
  refine ⟨(ahead directory).reverse, ?_, named.leads, ?_⟩
  · rw [pieces_join named.undivided, List.reverse_concat, List.dropWhile_cons_of_neg (by simpa using named.ne_empty)]
  · rw [names, List.reverse_reverse, names_ahead]

theorem components_ofBackwards (undivided : ∀ stretch ∈ above, '/' ∉ stretch.toList) :
    components (ofBackwards above) = names above := by
  rw [← names_dropWhile (fun _ nowhere => nowhere) above, ofBackwards]
  by_cases some : above.dropWhile leadsNowhere = []
  · rw [some]
    rfl
  · rw [components, pieces_intercalate (by simpa using some)]
    · rfl
    · intro stretch member
      exact undivided stretch ((List.dropWhile_suffix leadsNowhere).subset (List.mem_reverse.mp member))

theorem components_prefix_of_mem_ancestorsFrom {path : String} {stretches : List String}
    (undivided : ∀ stretch ∈ stretches, '/' ∉ stretch.toList) (member : path ∈ ancestorsFrom stretches) :
    components path <+: names stretches := by
  induction stretches with
  | nil => cases member
  | cons piece above ih =>
    have apart : ∀ stretch ∈ above, '/' ∉ stretch.toList := fun stretch member =>
      undivided stretch (List.mem_cons_of_mem piece member)
    have shorter : names above <+: names (piece :: above) := by
      cases leads : leadsNowhere piece with
      | true => exact names_passing leads ▸ List.prefix_rfl
      | false =>
        rw [names_climbing leads]
        exact List.prefix_append _ _
    simp only [ancestorsFrom] at member
    split at member
    · exact (ih apart member).trans shorter
    · rcases List.mem_cons.mp member with rfl | later
      · rwa [components_ofBackwards apart]
      · exact (ih apart later).trans shorter

/-- The directories above are on the way. -/
theorem components_prefix_of_mem_ancestors {directory path : String} (member : path ∈ ancestors directory) :
    components path <+: components directory := by
  rw [← names_backwards directory]
  refine components_prefix_of_mem_ancestorsFrom (fun stretch inside => ?_) member
  exact undivided_of_mem_pieces (List.mem_reverse.mp ((List.dropWhile_suffix leadsNowhere).subset inside))

/-- Another extension stays in the directory. -/
theorem withExtension_join {extension : String} (named : IsName name) (noStep : name ≠ "..")
    (noDot : (divideName name).1 ≠ ".") (undivided : '/' ∉ ((divideName name).1 ++ "." ++ extension).toList)
    (directory : String) :
    withExtension (join directory name) extension = join directory ((divideName name).1 ++ "." ++ extension) := by
  have stretches : backwards (join directory name) = name :: (ahead directory).reverse := by
    rw [backwards, pieces_join named.undivided, List.reverse_concat, List.dropWhile_cons_of_neg (by simp [named.leads])]
  rw [withExtension, stretches]
  split
  next none => cases none
  next up => exact absurd (List.cons.inj up).1 noStep
  next first above _ same =>
    obtain ⟨rfl, rfl⟩ := List.cons.inj same
    have kept : ((divideName name).1 == ".") = false := by simpa using noDot
    simp only [kept, Bool.false_and, Bool.false_eq_true, if_false, List.reverse_reverse]
    rw [← pieces_join undivided, intercalate_pieces]

end Path

end QuorumWarden
