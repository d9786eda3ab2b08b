import QuorumWarden.Files.Filing
import QuorumWarden.Proofs.PathTexts
import QuorumWarden.Proofs.TreeChanges

/-! Paths that are followed in a tree while it changes. A path keeps leading where it led as long as the directories on
it are kept, and a directory that is made shows to those only who had found nothing on their way. -/

namespace QuorumWarden.FileTree

variable {tree after : FileTree} {way names : List String} {name : String}

theorem follow_cons (tree : FileTree) (way : List String) (name : String) (rest : List String) :
    tree.follow way (name :: rest) = tree.look way >>= fun seen =>
      if seen.isSome then .error .notADirectory
      else if name = ".." then tree.follow way.dropLast rest
      else if longestName < name.utf8ByteSize then .error .nameTooLong
      else tree.look (way ++ [name]) >>= fun _ => tree.follow (way ++ [name]) rest := by
  rw [follow, look]
  cases there : tree.find way with
  | error error => rfl
  | ok found =>
    cases found with
    | file bytes => rfl
    | directory entries =>
      change (if _ then _ else _) = (if _ then _ else _)
      have entered : tree.look (way ++ [name]) = ((FileTree.directory entries).child? name).elim (.error .notFound)
          fun child => .ok child.contents := by
        rw [look, find_append, there]
        change Except.map _ ((FileTree.directory entries).find [name]) = _
        rw [find_child rfl]
        cases (FileTree.directory entries).child? name <;> rfl
      rw [entered]
      cases (FileTree.directory entries).child? name <;> rfl

theorem follow_append (tree : FileTree) (way first second : List String) :
    tree.follow way (first ++ second) = tree.follow way first >>= fun reached => tree.follow reached second := by
  induction first generalizing way with
  | nil => rfl
  | cons name first ih =>
    rw [List.cons_append, follow_cons, follow_cons]
    cases tree.look way with
    | error error => rfl
    | ok seen =>
      change (if _ then _ else _) = (if _ then _ else _) >>= _
      split
      · rfl
      split
      · exact ih _
      split
      · rfl
      cases tree.look (way ++ [name]) with
      | error error => rfl
      | ok seen => exact ih _

theorem follow_inside (here : tree.look way = .ok none) (name : String) (rest : List String) :
    tree.follow way (name :: rest) =
      if name = ".." then tree.follow way.dropLast rest
      else if longestName < name.utf8ByteSize then .error .nameTooLong
      else tree.look (way ++ [name]) >>= fun _ => tree.follow (way ++ [name]) rest := by
  rw [follow_cons, here]
  rfl

/-- A name that is no step up and not too long. -/
def IsPlain (name : String) : Prop := name ≠ ".." ∧ name.utf8ByteSize ≤ longestName

/-- A plain name in a directory leads to what stands there under it. -/
theorem follow_plain (here : tree.look way = .ok none) (plain : IsPlain name) (rest : List String) :
    tree.follow way (name :: rest) = tree.look (way ++ [name]) >>= fun _ => tree.follow (way ++ [name]) rest := by
  rw [follow_inside here, if_neg plain.1, if_neg (Nat.not_lt.mpr plain.2)]

/-- Names that lead on to a directory start in one. -/
theorem look_of_follow {reached : List String} (followed : tree.follow way names = .ok reached)
    (there : tree.look reached = .ok none) : tree.look way = .ok none := by
  cases names with
  | nil => rwa [Except.ok.inj followed]
  | cons name rest =>
    rw [follow_cons] at followed
    obtain ⟨contents, seen, onward⟩ := bind_eq_ok_iff.mp followed
    cases contents with
    | none => exact seen
    | some bytes => cases onward

theorem look_dropLast (here : tree.look way = .ok none) : tree.look way.dropLast = .ok none := by
  rcases List.eq_nil_or_concat way with rfl | ⟨above, name, rfl⟩
  · exact here
  · rw [List.concat_eq_append] at here ⊢
    rw [List.dropLast_concat]
    obtain ⟨found, there, _⟩ := exists_of_look here
    rw [find_append] at there
    obtain ⟨directory, parent, child⟩ := bind_eq_ok_iff.mp there
    cases directory with
    | file bytes => cases child
    | directory entries => exact look_of_find parent

/-- Where names lead to nothing, one of them is the first that is missing. -/
theorem exists_missing (here : tree.look way = .ok none) (lost : tree.follow way names = .error .notFound) :
    ∃ front name behind reached, names = front ++ name :: behind ∧ tree.follow way front = .ok reached ∧
      tree.look reached = .ok none ∧ IsPlain name ∧ tree.look (reached ++ [name]) = .error .notFound := by
  induction names generalizing way with
  | nil => cases lost
  | cons name rest ih =>
    have on {next : List String} (onward : tree.look next = .ok none) (lost : tree.follow next rest = .error .notFound)
        (entered : ∀ behind, tree.follow way (name :: behind) = tree.follow next behind) :
        ∃ front other behind reached, name :: rest = front ++ other :: behind ∧ tree.follow way front = .ok reached ∧
          tree.look reached = .ok none ∧ IsPlain other ∧ tree.look (reached ++ [other]) = .error .notFound := by
      obtain ⟨front, other, behind, reached, rfl, followed, found⟩ := ih onward lost
      exact ⟨name :: front, other, behind, reached, rfl, (entered front).trans followed, found⟩
    by_cases up : name = ".."
    · have entered (behind : List String) : tree.follow way (name :: behind) = tree.follow way.dropLast behind := by
        rw [follow_inside here, if_pos up]
      exact on (look_dropLast here) (entered rest ▸ lost) entered
    by_cases long : longestName < name.utf8ByteSize
    · rw [follow_inside here, if_neg up, if_pos long] at lost
      cases lost
    have plain : IsPlain name := ⟨up, Nat.not_lt.mp long⟩
    have step := follow_plain here plain
    rw [step rest] at lost
    cases seen : tree.look (way ++ [name]) with
    | error error =>
      rw [seen] at lost
      cases lost
      exact ⟨[], name, rest, way, rfl, rfl, here, plain, seen⟩
    | ok contents =>
      rw [seen] at lost step
      cases contents with
      | none => exact on seen lost step
      | some bytes =>
        cases rest with
        | nil => cases lost
        | cons next rest =>
          change tree.follow (way ++ [name]) (next :: rest) = _ at lost
          rw [follow_cons, seen] at lost
          cases lost

/-- Every directory is still a directory. -/
def Spares (tree after : FileTree) : Prop := ∀ way, tree.look way = .ok none → after.look way = .ok none

theorem Spares.trans {later : FileTree} (first : tree.Spares after) (second : after.Spares later) :
    tree.Spares later := fun way here => second way (first way here)

/-- The way to a directory is the same as long as there is no directory less. -/
theorem Spares.follow {reached : List String} (spares : tree.Spares after)
    (followed : tree.follow way names = .ok reached) (there : tree.look reached = .ok none) :
    after.follow way names = .ok reached := by
  induction names generalizing way with
  | nil => exact followed
  | cons name rest ih =>
    have here := look_of_follow followed there
    rw [follow_inside here] at followed
    rw [follow_inside (spares way here)]
    split
    next up =>
      rw [if_pos up] at followed
      exact ih followed
    next up =>
      rw [if_neg up] at followed
      split
      next long =>
        rw [if_pos long] at followed
        cases followed
      next short =>
        rw [if_neg short] at followed
        obtain ⟨_, -, onward⟩ := bind_eq_ok_iff.mp followed
        rw [spares _ (look_of_follow onward there)]
        exact ih onward

theorem spares_setChild (directory : tree.isDirectory = true) (free : isReplaceable (tree.child? name) = true)
    (child : Option FileTree) : tree.Spares (tree.setChild name child) := by
  intro path here
  have inside := isDirectory_setChild tree name child
  cases path with
  | nil => rw [look_of_find rfl, contents_eq_none_iff.mpr inside]
  | cons first rest =>
    rw [look, find_cons, if_pos directory] at here
    rw [look, find_cons, if_pos inside, child?_setChild]
    by_cases same : first = name
    · rw [same] at here
      rcases held : tree.child? name with _ | ⟨bytes⟩ | entries
      · rw [held] at here
        cases here
      · rw [held] at here
        cases rest <;> cases here
      · rw [held] at free
        cases free
    · rwa [if_neg same]

theorem Spares.graft {found other : FileTree} (spares : found.Spares other) (there : tree.find way = .ok found)
    (directory : found.isDirectory = true) : tree.Spares (tree.graft way other) := by
  have kept : other.isDirectory = true := by
    have top := spares [] (by rw [look_of_find rfl, contents_eq_none_iff.mpr directory])
    rw [look_of_find rfl] at top
    exact contents_eq_none_iff.mp (Except.ok.inj top)
  intro path here
  rcases look_graft there directory kept path with ⟨name, rest, rfl⟩ | same
  · have below {top found : FileTree} (there : top.find way = .ok found) :
        top.look (way ++ name :: rest) = found.look (name :: rest) := by
      rw [look, find_append, there]
      rfl
    rw [below there] at here
    rw [below (find_graft there other)]
    exact spares _ here
  · rw [same, here]

/-- As long as no directory is replaced or removed, a change in one spares all. -/
theorem spares_of_change {update : Option FileTree → Except FileError (Option FileTree)}
    (changed : tree.change (way ++ [name]) update = .ok after)
    (replaceable : ∀ old new, update old = .ok new → isReplaceable old = true) :
    tree.look way = .ok none ∧ tree.Spares after := by
  obtain ⟨found, child, there, directory, updated, rfl⟩ := find_of_change changed
  exact ⟨by rw [look_of_find there, contents_eq_none_iff.mpr directory],
    (spares_setChild directory (replaceable _ _ updated) child).graft there directory⟩

theorem spares_writeFile {bytes : List UInt8} (done : tree.writeFile (way ++ [name]) bytes = .ok after) :
    tree.look way = .ok none ∧ tree.Spares after := by
  refine spares_of_change done fun old new updated => ?_
  rcases old with _ | _ | _ <;> first | rfl | cases updated

theorem spares_rename {target : String} (different : name ≠ target)
    (done : tree.rename (way ++ [name]) (way ++ [target]) = .ok after) :
    tree.look way = .ok none ∧ tree.Spares after := by
  obtain ⟨bytes, moved, -, written, removed⟩ := exists_of_rename different done
  obtain ⟨there, spared⟩ := spares_writeFile written
  refine ⟨there, spared.trans (spares_of_change removed fun old new updated => ?_).2⟩
  rcases old with _ | _ | _ <;> first | rfl | cases updated

/-- All that is new are directories with nothing in them. -/
def Grows (tree after : FileTree) : Prop :=
  ∀ way, after.look way = tree.look way ∨ tree.look way = .error .notFound ∧ after.find way = .ok empty

namespace Grows

variable (grows : tree.Grows after)
include grows

theorem spares : tree.Spares after := fun way here => by
  rcases grows way with same | ⟨lost, _⟩
  · rw [same, here]
  · rw [lost] at here
    cases here

theorem follow (way names : List String) :
    after.follow way names = tree.follow way names ∨ tree.follow way names = .error .notFound := by
  induction names generalizing way with
  | nil => exact .inl rfl
  | cons name rest ih =>
    rw [follow_cons, follow_cons]
    rcases grows way with same | ⟨lost, _⟩
    case inr => exact .inr (by rw [lost]; rfl)
    rw [same]
    cases tree.look way with
    | error error => exact .inl rfl
    | ok seen =>
      change (if _ then _ else _) = (if _ then _ else _) ∨ (if _ then _ else _) = _
      split
      · exact .inl rfl
      split
      · exact ih _
      split
      · exact .inl rfl
      rcases grows (way ++ [name]) with same | ⟨lost, _⟩
      case inr => exact .inr (by rw [lost]; rfl)
      rw [same]
      cases tree.look (way ++ [name]) with
      | error error => exact .inl rfl
      | ok seen => exact ih _

end Grows

/-- Behind the first name that is missing, only plain ones follow. Of names that all lead somewhere nothing is asked. -/
def Straight (tree : FileTree) (names : List String) : Prop :=
  ∀ front name behind, names = front ++ name :: behind → tree.follow [] (front ++ [name]) = .error .notFound →
    ∀ other ∈ behind, IsPlain other

theorem straight_of_plain (plain : ∀ name ∈ names, IsPlain name) : tree.Straight names := by
  rintro front name behind rfl - other member
  exact plain other (List.mem_append_right front (List.mem_cons_of_mem name member))

theorem Straight.of_append {more : List String} (straight : tree.Straight (names ++ more)) : tree.Straight names :=
  fun front name behind same lost other member => straight front name (behind ++ more)
    (by rw [same, List.append_assoc, List.cons_append]) lost other (List.mem_append_left _ member)

theorem Straight.grown (straight : tree.Straight names) (grows : tree.Grows after) : after.Straight names :=
  fun front name behind same lost => straight front name behind same <| by
    rcases grows.follow [] (front ++ [name]) with kept | lost
    · rwa [kept] at lost
    · exact lost

theorem look_empty_append (there : tree.find way = .ok empty) (name : String) :
    tree.look (way ++ [name]) = .error .notFound := by
  rw [look_eq_error_iff, find_append, there]
  rfl

theorem look_root_of_lost (lost : tree.follow [] names = .error .notFound) : tree.look [] = .ok none := by
  cases names with
  | nil => cases lost
  | cons name rest =>
    rw [follow_cons] at lost
    cases tree with
    | file bytes => cases lost
    | directory entries => rfl

/-- A name is missing itself, or one of those in front of it. -/
theorem missing_last {front : List String} (lost : tree.follow [] (front ++ [name]) = .error .notFound)
    (found : tree.follow [] front ≠ .error .notFound) :
    ∃ reached, tree.follow [] front = .ok reached ∧ tree.look reached = .ok none ∧ IsPlain name ∧
      tree.look (reached ++ [name]) = .error .notFound := by
  obtain ⟨ahead, first, behind, reached, same, followed, there, plain, missing⟩ :=
    exists_missing (look_root_of_lost lost) lost
  rcases List.eq_nil_or_concat behind with rfl | ⟨inner, last, rfl⟩
  · obtain ⟨rfl, last⟩ := List.append_inj' same rfl
    obtain ⟨rfl, -⟩ := List.cons.inj last
    exact ⟨reached, followed, there, plain, missing⟩
  · rw [List.concat_eq_append, ← List.cons_append, ← List.append_assoc] at same
    obtain ⟨rfl, -⟩ := List.append_inj' same rfl
    refine absurd ?_ found
    rw [follow_append, followed]
    exact (follow_plain there plain inner).trans (by rw [missing]; rfl)

/-- Whoever found nothing on the way to a directory finds nothing in it after it was made. -/
theorem Grows.follow_of_lost (grows : tree.Grows after) (straight : tree.Straight names)
    (lost : tree.follow [] names = .error .notFound) :
    after.follow [] names = .error .notFound ∨
      ∃ reached, after.follow [] names = .ok reached ∧ after.find reached = .ok empty := by
  obtain ⟨front, name, behind, reached, rfl, followed, there, plain, missing⟩ :=
    exists_missing (look_root_of_lost lost) lost
  have kept : after.follow [] front = .ok reached := grows.spares.follow followed there
  have stop : tree.follow [] (front ++ [name]) = .error .notFound := by
    rw [follow_append, followed]
    exact (follow_plain there plain []).trans (by rw [missing]; rfl)
  have onward : after.follow [] (front ++ name :: behind) =
      after.look (reached ++ [name]) >>= fun _ => after.follow (reached ++ [name]) behind := by
    rw [follow_append, kept]
    exact follow_plain (grows.spares _ there) plain behind
  rw [onward]
  rcases grows (reached ++ [name]) with same | ⟨_, made⟩
  · rw [same, missing]
    exact .inl rfl
  · rw [look_of_find made]
    cases behind with
    | nil => exact .inr ⟨_, rfl, made⟩
    | cons other rest =>
      refine .inl ?_
      change after.follow _ _ = _
      rw [follow_plain (look_of_find made) (straight front name (other :: rest) rfl stop other List.mem_cons_self),
        look_empty_append made]
      rfl

theorem accept_of_append {path behind : String} (accepted : accept (path ++ behind) = .ok ()) :
    accept path = .ok () := by
  rw [accept] at accepted ⊢
  rw [String.toList_append, String.utf8ByteSize_append] at accepted
  split at accepted
  · cases accepted
  split at accepted
  · cases accepted
  next whole short =>
    rw [if_neg fun broken => whole (by simp_all), if_neg (by omega)]

theorem place_of_endsIn {path : String} {front : List String} (ends : Path.EndsIn path front name) (tree : FileTree) :
    tree.place path = accept path >>= fun _ => tree.follow [] front >>= fun way =>
      if name = ".." then .error .isADirectory
      else if longestName < name.utf8ByteSize then .error .nameTooLong
      else .ok ⟨way, name, Path.isOpen path⟩ := by
  obtain ⟨above, stretches, leads, rfl⟩ := ends
  have named : ¬name = "." := by
    rintro rfl
    cases leads
  rw [place, stretches]
  simp only [named, false_or]
  rfl

/-- The way to a name in the directory at the path. -/
def within (tree : FileTree) (directory name : String) : Except FileError (List String) :=
  accept (Path.join directory name) >>= fun _ => (tree.follow [] (Path.components directory)).map (· ++ [name])

section

variable {directory : String}

theorem within_of_follow (accepted : accept (Path.join directory name) = .ok ())
    (followed : tree.follow [] (Path.components directory) = .ok way) :
    tree.within directory name = .ok (way ++ [name]) := by
  rw [within, accepted, followed]
  rfl

theorem exists_of_within {location : List String} (found : tree.within directory name = .ok location) :
    accept (Path.join directory name) = .ok () ∧
      ∃ way, tree.follow [] (Path.components directory) = .ok way ∧ location = way ++ [name] := by
  rw [within] at found
  obtain ⟨_, accepted, led⟩ := bind_eq_ok_iff.mp found
  refine ⟨accepted, ?_⟩
  cases followed : tree.follow [] (Path.components directory) with
  | error error =>
    rw [followed] at led
    cases led
  | ok way =>
    rw [followed] at led
    exact ⟨way, rfl, (Except.ok.inj led).symm⟩

variable (named : Path.IsName name) (plain : IsPlain name) (tree : FileTree) (directory : String)
include named plain

/-- Whatever is done at a name in a directory. -/
private theorem place_join {α : Type} {next : Place → Except FileError α} {onward : List String → Except FileError α}
    (same : ∀ way, next ⟨way, name, false⟩ = onward (way ++ [name])) :
    tree.place (Path.join directory name) >>= next = tree.within directory name >>= onward := by
  rw [place_of_endsIn (Path.endsIn_join named directory), Path.isOpen_join named, within]
  rcases accept (Path.join directory name) with _ | _
  · rfl
  · rcases tree.follow [] (Path.components directory) with _ | way
    · rfl
    · simp only [if_neg plain.1, if_neg (Nat.not_lt.mpr plain.2)]
      exact same way

theorem textAt_join : tree.textAt (Path.join directory name) = tree.within directory name >>= tree.readText :=
  place_join named plain tree directory fun _ => rfl

theorem writeAt_join (bytes : List UInt8) : tree.writeAt (Path.join directory name) bytes =
    tree.within directory name >>= fun location => tree.writeFile location bytes :=
  place_join named plain tree directory fun _ => rfl

theorem removeFileAt_join : tree.removeFileAt (Path.join directory name) =
    tree.within directory name >>= tree.removeFile :=
  place_join named plain tree directory fun _ => rfl

theorem renameAt_join {target : String} (targetNamed : Path.IsName target) (targetPlain : IsPlain target) :
    tree.renameAt (Path.join directory name) (Path.join directory target) =
      tree.within directory name >>= fun source => tree.within directory target >>= tree.rename source :=
  place_join named plain tree directory fun _ => place_join targetNamed targetPlain tree directory fun _ => rfl

end

end QuorumWarden.FileTree
