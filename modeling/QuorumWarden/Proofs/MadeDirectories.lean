import QuorumWarden.Files.Order
import QuorumWarden.Proofs.FollowedPaths

/-! Directories that are made with those above them. The one that is wanted is tried first, so that nothing changes
where it is there; where it is missing, the others are made from the first that is missing down to it. -/

namespace QuorumWarden

namespace FileTree

variable {tree after : FileTree} {way front : List String} {path name : String}

theorem of_makeDirectory (made : tree.makeDirectory (way ++ [name]) = .ok after) :
    tree.look way = .ok none ∧ tree.look (way ++ [name]) = .error .notFound ∧ after.find (way ++ [name]) = .ok empty ∧
      tree.Grows after := by
  obtain ⟨found, child, there, directory, updated, same⟩ := find_of_change made
  obtain ⟨absent, rfl⟩ : found.child? name = none ∧ child = some empty := by
    revert updated
    cases found.child? name <;> intro updated <;> cases updated
    exact ⟨rfl, rfl⟩
  have created : after.find (way ++ [name]) = .ok empty := by
    rw [same, find_child_graft there, if_pos rfl]
    rfl
  refine ⟨by rw [look_of_find there, contents_eq_none_iff.mpr directory], ?_, created, fun path => ?_⟩
  · rw [look_eq_error_iff, find_append, there]
    exact (find_child directory name).trans (by rw [absent]; rfl)
  · obtain ⟨old, new, updated, seen⟩ := look_of_change made
    obtain ⟨rfl, rfl⟩ : old = none ∧ new = some empty := by
      cases old <;> cases updated
      exact ⟨rfl, rfl⟩
    rcases seen path with kept | ⟨rest, rfl, lost, found⟩
    · exact .inl kept
    · cases rest with
      | nil => exact .inr ⟨lost, created⟩
      | cons next rest => exact .inl (found.trans lost.symm)

theorem makeDirectory_of_missing (there : tree.look way = .ok none)
    (missing : tree.look (way ++ [name]) = .error .notFound) :
    ∃ after, tree.makeDirectory (way ++ [name]) = .ok after := by
  obtain ⟨found, held, contents⟩ := exists_of_look there
  have directory := contents_eq_none_iff.mp contents
  rw [look_eq_error_iff, find_append, held] at missing
  have absent : found.child? name = none := by
    have lost := (find_child directory name).symm.trans missing
    cases child : found.child? name with
    | none => rfl
    | some child' =>
      rw [child] at lost
      cases lost
  rw [makeDirectory, change_child_of_find held directory, absent]
  exact ⟨_, rfl⟩

/-- A path that names a place ends in the name. -/
theorem exists_of_place {place : Place} (placed : tree.place path = .ok place) :
    accept path = .ok () ∧ ∃ front, Path.EndsIn path front place.name ∧ tree.follow [] front = .ok place.way ∧
      IsPlain place.name := by
  rw [FileTree.place] at placed
  obtain ⟨_, accepted, leads⟩ := bind_eq_ok_iff.mp placed
  refine ⟨accepted, ?_⟩
  cases stretches : (Path.pieces path).reverse.dropWhile (· == "") with
  | nil =>
    rw [stretches] at leads
    cases leads
  | cons name above =>
    rw [stretches] at leads
    obtain ⟨way, followed, stands⟩ := bind_eq_ok_iff.mp leads
    split at stands
    · cases stands
    split at stands
    · cases stands
    next noDots short =>
      cases stands
      obtain ⟨noDot, up⟩ := not_or.mp noDots
      exact ⟨_, Path.endsIn_of_stretches stretches noDot, followed, up, Nat.not_lt.mp short⟩

/-- A directory is made only where the path led to nothing. -/
private theorem of_place_makeDirectory
    (made : (tree.place path >>= fun place => tree.makeDirectory place.location) = .ok after) :
    tree.follow [] (Path.components path) = .error .notFound ∧ tree.Grows after := by
  obtain ⟨place, placed, made⟩ := bind_eq_ok_iff.mp made
  obtain ⟨-, front, ends, followed, plain⟩ := exists_of_place placed
  obtain ⟨there, missing, -, grows⟩ := of_makeDirectory made
  refine ⟨?_, grows⟩
  rw [ends.components, follow_append, followed]
  exact (follow_plain there plain []).trans (by rw [missing]; rfl)

theorem of_makeDirectoryAt (made : tree.makeDirectoryAt path = .ok after) :
    after = tree ∨ tree.follow [] (Path.components path) = .error .notFound ∧ tree.Grows after := by
  rw [makeDirectoryAt] at made
  cases done : tree.place path >>= fun place => tree.makeDirectory place.location with
  | ok grown =>
    rw [done] at made
    cases made
    exact .inr (of_place_makeDirectory done)
  | error error =>
    rw [done] at made
    change (if _ then _ else _) = _ at made
    split at made <;> cases made
    exact .inl rfl

theorem accept_of_reach_lost (lost : tree.reach path = .error .notFound) : accept path = .ok () := by
  rw [reach, accept] at lost
  rw [accept]
  split at lost
  · cases lost
  split at lost
  · cases lost
  next whole short => rw [if_neg whole, if_neg short]

theorem accept_of_reach (reached : tree.reach path = .ok way) : accept path = .ok () := by
  obtain ⟨_, accepted, -⟩ := bind_eq_ok_iff.mp reached
  exact accepted

theorem reach_of_follow (accepted : accept path = .ok ()) (names : List String) (same : Path.components path = names) :
    tree.reach path = tree.follow [] names := by
  rw [reach, accepted, same]
  rfl

theorem makeDirectoryAt_of_reach (reached : tree.reach path = .ok way) (there : tree.look way = .ok none) :
    tree.makeDirectoryAt path = .ok tree := by
  have accepted := accept_of_reach reached
  rw [makeDirectoryAt]
  cases done : tree.place path >>= fun place => tree.makeDirectory place.location with
  | ok grown =>
    have lost := (of_place_makeDirectory done).1
    rw [← reach_of_follow accepted _ rfl, reached] at lost
    cases lost
  | error error =>
    obtain ⟨found, held, contents⟩ := exists_of_look there
    have led : tree.reach path >>= tree.find = .ok found := by
      rw [reached]
      exact held
    have directory : tree.isDirectoryAt path = true := by
      rw [isDirectoryAt, led]
      exact contents_eq_none_iff.mp contents
    exact if_pos directory

section

variable (accepted : accept path = .ok ()) (ends : Path.EndsIn path front name)
include accepted ends

theorem makeDirectoryAt_of_lost (lost : tree.follow [] front = .error .notFound) :
    tree.makeDirectoryAt path = .error .notFound := by
  have nowhere : tree.isDirectoryAt path = false := by
    rw [isDirectoryAt, reach_of_follow accepted _ ends.components, follow_append, lost]
    rfl
  rw [makeDirectoryAt, place_of_endsIn ends, accepted]
  simp only [bind, Except.bind, lost, nowhere, Bool.false_eq_true, if_false]

theorem makeDirectoryAt_of_missing (followed : tree.follow [] front = .ok way) (there : tree.look way = .ok none)
    (plain : IsPlain name) (missing : tree.look (way ++ [name]) = .error .notFound) :
    ∃ after, tree.makeDirectoryAt path = .ok after ∧ after.find (way ++ [name]) = .ok empty ∧
      after.follow [] (front ++ [name]) = .ok (way ++ [name]) ∧ tree.Grows after := by
  obtain ⟨after, made⟩ := makeDirectory_of_missing there missing
  obtain ⟨-, -, created, grows⟩ := of_makeDirectory made
  refine ⟨after, ?_, created, ?_, grows⟩
  · rw [makeDirectoryAt, place_of_endsIn ends, accepted]
    simp only [bind, Except.bind, followed, if_neg plain.1, if_neg (Nat.not_lt.mpr plain.2), Place.location, made]
  · rw [follow_append, grows.spares.follow followed there]
    exact (follow_plain (grows.spares _ there) plain []).trans (by rw [look_of_find created]; rfl)

end

/-- There is no directory at the path, but one can be made there: what is missing on the way are plain names, and the
path ends in a name. -/
structure Lacks (tree : FileTree) (directory : String) : Prop where
  missing : tree.reach directory = .error .notFound
  straight : tree.Straight (Path.components directory)
  noDot : Path.endsInDot directory = false

end FileTree

namespace Filing

open FileTree

variable {tree after between : FileTree} {path name : String} {above : List String}

theorem once_ok {change : FileTree → Except FileError FileTree} (done : change tree = .ok after) :
    (once change).run tree = (.ok (), after) := by
  simp only [once, ExceptT.run_mk, done]

theorem once_error {change : FileTree → Except FileError FileTree} {error : FileError}
    (failed : change tree = .error error) : (once change).run tree = (.error error, tree) := by
  simp only [once, ExceptT.run_mk, failed]

section

variable {ε σ α β : Type} {first : ExceptT ε (StateM σ) α} {before between : σ}

theorem run_bind_ok {value : α} (ran : first.run before = (.ok value, between))
    (next : α → ExceptT ε (StateM σ) β) : (first >>= next).run before = (next value).run between := by
  rw [ExceptT.run_bind]
  simp only [bind, StateT.bind, ran]

theorem run_tryCatch_ok {value : α} (ran : first.run before = (.ok value, between))
    (handle : ε → ExceptT ε (StateM σ) α) : (tryCatch first handle).run before = (.ok value, between) := by
  change (first.run >>= fun outcome => match outcome with
    | .ok value => pure (.ok value)
    | .error error => (handle error).run) before = _
  simp only [bind, StateT.bind, ran]
  rfl

theorem run_tryCatch_error {error : ε} (ran : first.run before = (.error error, between))
    (handle : ε → ExceptT ε (StateM σ) α) : (tryCatch first handle).run before = (handle error).run between := by
  change (first.run >>= fun outcome => match outcome with
    | .ok value => pure (.ok value)
    | .error error => (handle error).run) before = _
  simp only [bind, StateT.bind, ran]

end

theorem makeMissing_of_made (made : tree.makeDirectoryAt path = .ok after) (above : List String) :
    (makeMissing makeDirectory (path :: above)).run tree = (.ok (), after) :=
  run_tryCatch_ok (once_ok made) _

/-- Where the path leads through nothing, it is tried again once there is a directory above. -/
theorem makeMissing_of_lost (lost : tree.makeDirectoryAt path = .error .notFound)
    (ahead : (makeMissing makeDirectory above).run tree = (.ok (), between))
    (made : between.makeDirectoryAt path = .ok after) :
    (makeMissing makeDirectory (path :: above)).run tree = (.ok (), after) :=
  (run_tryCatch_error (once_error lost) _).trans ((run_bind_ok ahead _).trans (once_ok made))

/-- Where only the last name is missing, one directory is made. -/
theorem makeMissing_of_missing_last {front : List String} (accepted : accept path = .ok ())
    (ends : Path.EndsIn path front name) (lost : tree.follow [] (front ++ [name]) = .error .notFound)
    (found : tree.follow [] front ≠ .error .notFound) (above : List String) :
    ∃ made way, (makeMissing makeDirectory (path :: above)).run tree = (.ok (), made) ∧
      made.follow [] (front ++ [name]) = .ok way ∧ made.find way = .ok empty := by
  obtain ⟨reached, followed, there, plain, missing⟩ := missing_last lost found
  obtain ⟨made, done, created, arrived, -⟩ := makeDirectoryAt_of_missing accepted ends followed there plain missing
  exact ⟨made, _, makeMissing_of_made done above, arrived, created⟩

/-- The directories on a path are made from the first that is missing down to the last, which is empty then. -/
theorem makeMissing_of_straight (accepted : accept path = .ok ()) (ends : Path.EndsIn path (Path.names above) name)
    (undivided : ∀ stretch ∈ above, '/' ∉ stretch.toList)
    (room : ∀ stretches, stretches <:+ above → accept ("/".intercalate stretches.reverse) = .ok ())
    (straight : tree.Straight (Path.names above ++ [name]))
    (lost : tree.follow [] (Path.names above ++ [name]) = .error .notFound) :
    ∃ made way, (makeMissing makeDirectory (path :: Path.ancestorsFrom (name :: above))).run tree = (.ok (), made) ∧
      made.follow [] (Path.names above ++ [name]) = .ok way ∧ made.find way = .ok empty := by
  induction above generalizing path name with
  | nil => exact makeMissing_of_missing_last accepted ends lost (by simp [Path.names, follow]) _
  | cons piece above ih =>
    by_cases lostAbove : tree.follow [] (Path.names (piece :: above)) = .error .notFound
    case neg => exact makeMissing_of_missing_last accepted ends lost lostAbove _
    have apart : ∀ stretch ∈ above, '/' ∉ stretch.toList := fun stretch member =>
      undivided stretch (List.mem_cons_of_mem piece member)
    have fits : ∀ stretches, stretches <:+ above → accept ("/".intercalate stretches.reverse) = .ok () :=
      fun stretches part => room stretches (part.trans (List.suffix_cons piece above))
    cases leads : Path.leadsNowhere piece with
    | true =>
      rw [Path.names_passing leads] at ends straight lost ⊢
      rw [Path.ancestorsFrom_passing leads]
      exact ih accepted ends apart fits straight lost
    | false =>
      have named : Path.IsName piece := ⟨undivided piece List.mem_cons_self, leads⟩
      rw [Path.names_climbing leads] at ends straight lost lostAbove ⊢
      rw [Path.ancestorsFrom_climbing ends.leads named apart]
      have parentEnds := Path.endsIn_intercalate named apart
      obtain ⟨made, way, ahead, arrived, created⟩ := ih (room _ List.suffix_rfl) parentEnds apart fits
        straight.of_append lostAbove
      have plain : IsPlain name := straight (Path.names above) piece [name] (by simp) lostAbove name (by simp)
      obtain ⟨after, done, createdLast, arrivedLast, -⟩ := makeDirectoryAt_of_missing accepted ends arrived
        (look_of_find created) plain (look_empty_append created name)
      exact ⟨after, _, makeMissing_of_lost (makeDirectoryAt_of_lost accepted ends lostAbove) ahead done, arrivedLast,
        createdLast⟩

theorem makeDirectories_of_lacks {directory : String} (lacks : tree.Lacks directory) :
    ∃ made way, (makeDirectories directory).run tree = (.ok (), made) ∧ made.reach directory = .ok way ∧
      made.find way = .ok empty := by
  obtain ⟨missing, straight, noDot⟩ := lacks
  have accepted := accept_of_reach_lost missing
  rw [reach_of_follow accepted _ rfl] at missing
  have leads : Path.components directory ≠ [] := fun none => by
    rw [none] at missing
    cases missing
  obtain ⟨name, above, stretches, ends⟩ := Path.exists_endsIn noDot leads
  have behind : above <:+ (Path.pieces directory).reverse := by
    have kept := List.dropWhile_suffix Path.leadsNowhere (l := (Path.pieces directory).reverse)
    rw [← Path.backwards, stretches] at kept
    exact (List.suffix_cons name above).trans kept
  have undivided : ∀ stretch ∈ above, '/' ∉ stretch.toList := fun stretch member =>
    Path.undivided_of_mem_pieces (List.mem_reverse.mp (behind.subset member))
  have room : ∀ part, part <:+ above → accept ("/".intercalate part.reverse) = .ok () := by
    intro part within
    obtain ⟨rest, whole⟩ := List.reverse_prefix.mpr (within.trans behind)
    rw [List.reverse_reverse] at whole
    obtain ⟨more, same⟩ := Path.intercalate_append part.reverse rest
    rw [whole, Path.intercalate_pieces] at same
    exact accept_of_append (same ▸ accepted)
  rw [ends.components] at straight missing
  obtain ⟨made, way, done, arrived, created⟩ := makeMissing_of_straight accepted ends undivided room straight missing
  refine ⟨made, way, ?_, ?_, created⟩
  · rw [makeDirectories, Path.ancestors, stretches]
    exact done
  · rw [reach_of_follow accepted _ ends.components]
    exact arrived

theorem makeDirectories_of_reach {directory : String} {way : List String} (reached : tree.reach directory = .ok way)
    (there : tree.look way = .ok none) : (makeDirectories directory).run tree = (.ok (), tree) :=
  makeMissing_of_made (makeDirectoryAt_of_reach reached there) _

end Filing

namespace FileProgram

variable {ε α β : Type}

theorem onTree_give (order : FileOrder) : onTree order.give = Filing.once fun tree => order.change tree := rfl

theorem onTree_bind (first : ExceptT ε FileProgram α) (next : α → ExceptT ε FileProgram β) :
    onTree (first >>= next) = onTree first >>= fun value => onTree (next value) := by
  apply ExceptT.ext
  rw [ExceptT.run_bind]
  change (first.run >>= _).runIn FileOrder.carryOut = _
  rw [Program.runIn_bind]
  refine congrArg (first.run.runIn FileOrder.carryOut >>= ·) (funext fun outcome => ?_)
  cases outcome <;> rfl

theorem run_tryCatch (first : ExceptT ε FileProgram α) (handle : ε → ExceptT ε FileProgram α) :
    (tryCatch first handle).run = first.run >>= fun outcome =>
      match outcome with
      | .ok value => pure (.ok value)
      | .error error => (handle error).run := rfl

theorem onTree_tryCatch (first : ExceptT ε FileProgram α) (handle : ε → ExceptT ε FileProgram α) :
    onTree (tryCatch first handle) = tryCatch (onTree first) fun error => onTree (handle error) := by
  apply ExceptT.ext
  change (tryCatch first handle).run.runIn FileOrder.carryOut = _
  rw [run_tryCatch, Program.runIn_bind]
  change _ = first.run.runIn FileOrder.carryOut >>= fun outcome =>
    match outcome with
    | .ok value => pure (.ok value)
    | .error error => (onTree (handle error)).run
  refine congrArg (first.run.runIn FileOrder.carryOut >>= ·) (funext fun outcome => ?_)
  cases outcome <;> rfl

theorem onTree_during (activity : String) (action : ExceptT FileError FileProgram α) :
    onTree (Filing.during activity action) = Filing.during activity (onTree action) := by
  apply ExceptT.ext
  change (action.run >>= _).runIn FileOrder.carryOut = action.run.runIn FileOrder.carryOut >>= _
  rw [Program.runIn_bind]
  rfl

theorem onTree_makeMissing (paths : List String) :
    onTree (Filing.makeMissing (fun path => FileOrder.give (.makeDirectory path)) paths) =
      Filing.makeMissing Filing.makeDirectory paths := by
  induction paths with
  | nil => rfl
  | cons path above ih =>
    rw [Filing.makeMissing, Filing.makeMissing, onTree_tryCatch]
    refine congrArg (tryCatch _) (funext fun error => ?_)
    have again : onTree (Filing.makeMissing (fun path => FileOrder.give (.makeDirectory path)) above >>= fun _ =>
        FileOrder.give (.makeDirectory path)) =
          Filing.makeMissing Filing.makeDirectory above >>= fun _ => Filing.makeDirectory path := by
      rw [onTree_bind, ih]
      rfl
    dsimp only
    split
    · rw [onTree_bind]
      rfl
    · exact again

/-- Ordering directories to be made comes to making them. -/
theorem onTree_makeDirectories (path : String) :
    onTree (FileOrder.makeDirectories path) = Filing.makeDirectories path := onTree_makeMissing _

end FileProgram

end QuorumWarden
