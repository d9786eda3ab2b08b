import QuorumWarden.Files.Tree
import QuorumWarden.Proofs.Outcomes

/-! What a change makes of a tree. It replaces one directory by another in its place, so all that comes of it can be
read off that directory. -/

namespace QuorumWarden.FileTree

private theorem lookup_others (entries : List (String × FileTree)) (name other : String) :
    (entries.filter (·.1 != name)).lookup other = if other = name then none else entries.lookup other := by
  induction entries with
  | nil => simp
  | cons entry rest ih =>
    by_cases dropped : entry.1 = name
    · rw [List.filter_cons_of_neg (by simpa using dropped), ih, List.lookup_cons]
      split
      next => rfl
      next different => rw [beq_false_of_ne fun same => different (same.trans dropped)]
    · rw [List.filter_cons_of_pos (by simpa using dropped), List.lookup_cons, List.lookup_cons]
      by_cases here : other = entry.1
      · rw [here, beq_self_eq_true, if_neg dropped]
      · rw [beq_false_of_ne here, ih]

theorem child?_setChild (tree : FileTree) (name other : String) (child : Option FileTree) :
    (tree.setChild name child).child? other = if other = name then child else tree.child? other := by
  have others := lookup_others tree.entries name other
  cases child with
  | none => exact others
  | some child =>
    change ((name, child) :: tree.entries.filter (·.1 != name)).lookup other = _
    rw [List.lookup_cons]
    by_cases same : other = name
    · rw [same, beq_self_eq_true, if_pos rfl]
    · rw [beq_false_of_ne same, others, if_neg same, if_neg same]
      rfl

@[simp] theorem child?_setChild_self (tree : FileTree) (name : String) (child : Option FileTree) :
    (tree.setChild name child).child? name = child := by rw [child?_setChild, if_pos rfl]

@[simp] theorem isDirectory_setChild (tree : FileTree) (name : String) (child : Option FileTree) :
    (tree.setChild name child).isDirectory = true := by cases child <;> rfl

/-- What a name stood for is forgotten. -/
@[simp] theorem setChild_setChild (tree : FileTree) (name : String) (first second : Option FileTree) :
    (tree.setChild name first).setChild name second = tree.setChild name second := by
  have forgotten : (tree.setChild name first).entries.filter (·.1 != name) = tree.entries.filter (·.1 != name) := by
    cases first with
    | none => simp [setChild, entries]
    | some child => simp [setChild, entries]
  cases second <;> rw [setChild, setChild, forgotten]

theorem find_cons (tree : FileTree) (name : String) (rest : List String) :
    tree.find (name :: rest) =
      if tree.isDirectory then
        match tree.child? name with
        | some child => child.find rest
        | none => .error .notFound
      else .error .notADirectory := rfl

theorem find_append (tree : FileTree) (way rest : List String) :
    tree.find (way ++ rest) = tree.find way >>= fun found => found.find rest := by
  induction way generalizing tree with
  | nil => rfl
  | cons name way ih =>
    rw [List.cons_append, find_cons, find_cons]
    split
    · split
      · exact ih _
      · rfl
    · rfl

/-- The tree with another one in the place of what the way leads to. -/
def graft (tree : FileTree) : List String → FileTree → FileTree
  | [], other => other
  | name :: rest, other => tree.setChild name ((tree.child? name).map fun child => child.graft rest other)

variable {tree found : FileTree} {way : List String}

theorem find_child (directory : found.isDirectory = true) (name : String) :
    found.find [name] = (found.child? name).elim (.error .notFound) .ok := by
  rw [find_cons, if_pos directory]
  cases found.child? name <;> rfl

theorem find_graft (there : tree.find way = .ok found) (other : FileTree) :
    (tree.graft way other).find way = .ok other := by
  induction way generalizing tree with
  | nil => rfl
  | cons name way ih =>
    rw [find_cons] at there
    split at there
    · split at there
      next child held =>
        rw [graft, held, find_cons, isDirectory_setChild, child?_setChild_self]
        exact ih there
      next => cases there
    · cases there

theorem graft_graft (tree : FileTree) (way : List String) (first second : FileTree) :
    (tree.graft way first).graft way second = tree.graft way second := by
  induction way generalizing tree with
  | nil => rfl
  | cons name way ih =>
    rw [graft, graft, graft, child?_setChild_self, setChild_setChild, Option.map_map]
    congr 2
    funext child
    exact ih child

/-- A change below a directory is a change in that directory. -/
theorem change_child (tree : FileTree) (way : List String) (name : String)
    (update : Option FileTree → Except FileError (Option FileTree)) :
    tree.change (way ++ [name]) update = tree.find way >>= fun found =>
      if found.isDirectory then
        (update (found.child? name)).map fun child => tree.graft way (found.setChild name child)
      else .error .notADirectory := by
  induction way generalizing tree with
  | nil => rfl
  | cons first way ih =>
    have longer : ∃ second rest, way ++ [name] = second :: rest := List.exists_cons_of_ne_nil (by simp)
    obtain ⟨second, rest, same⟩ := longer
    rw [List.cons_append, same, change, ← same, find_cons]
    · split
      next =>
        cases held : tree.child? first with
        | none => rfl
        | some child =>
          simp only [ih child]
          cases child.find way with
          | error error => rfl
          | ok found =>
            change Except.map _ (if _ then _ else _) = (if _ then _ else _)
            split
            · cases update (found.child? name) with
              | error error => rfl
              | ok changed =>
                change Except.ok (tree.setChild first (some _)) = Except.ok (tree.graft (first :: way) _)
                rw [graft, held]
                rfl
            · rfl
      next => rfl
    · simp

theorem change_child_of_find (there : tree.find way = .ok found) (directory : found.isDirectory = true) (name : String)
    (update : Option FileTree → Except FileError (Option FileTree)) :
    tree.change (way ++ [name]) update =
      (update (found.child? name)).map fun child => tree.graft way (found.setChild name child) := by
  rw [change_child, there]
  exact if_pos directory

/-- Only a directory that is there can be changed. -/
theorem find_of_change {name : String} {update : Option FileTree → Except FileError (Option FileTree)}
    {after : FileTree} (changed : tree.change (way ++ [name]) update = .ok after) :
    ∃ found child, tree.find way = .ok found ∧ found.isDirectory = true ∧ update (found.child? name) = .ok child ∧
      after = tree.graft way (found.setChild name child) := by
  rw [change_child] at changed
  cases there : tree.find way with
  | error error =>
    rw [there] at changed
    cases changed
  | ok found =>
    rw [there] at changed
    change (if _ then _ else _) = _ at changed
    split at changed
    next directory =>
      cases updated : update (found.child? name) with
      | error error =>
        rw [updated] at changed
        cases changed
      | ok child =>
        rw [updated] at changed
        exact ⟨found, child, rfl, directory, updated, (Except.ok.inj changed).symm⟩
    next => cases changed

theorem find_child_graft (there : tree.find way = .ok found) (changed : FileTree) (name : String)
    (child : Option FileTree) (other : String) : (tree.graft way (changed.setChild name child)).find (way ++ [other]) =
      (if other = name then child else changed.child? other).elim (.error .notFound) .ok := by
  rw [find_append, find_graft there, ← child?_setChild]
  exact find_child (isDirectory_setChild changed name child) other

/-- A change shows under the name that it is made at, and beside that nowhere in the directory. -/
theorem find_beside_change {name : String} {update : Option FileTree → Except FileError (Option FileTree)}
    {after : FileTree} (changed : tree.change (way ++ [name]) update = .ok after) :
    ∃ found child, update found = .ok child ∧
      ∀ other, after.find (way ++ [other]) =
        if other = name then child.elim (.error .notFound) .ok else tree.find (way ++ [other]) := by
  obtain ⟨found, child, there, directory, updated, rfl⟩ := find_of_change changed
  have before (other : String) : tree.find (way ++ [other]) = (found.child? other).elim (.error .notFound) .ok := by
    rw [find_append, there]
    exact find_child directory other
  refine ⟨found.child? name, child, updated, fun other => ?_⟩
  rw [find_child_graft there, before]
  split <;> rfl

theorem find_writeFile {name : String} {bytes : List UInt8} {after : FileTree}
    (done : tree.writeFile (way ++ [name]) bytes = .ok after) (other : String) :
    after.find (way ++ [other]) = if other = name then .ok (.file bytes) else tree.find (way ++ [other]) := by
  obtain ⟨found, child, updated, beside⟩ := find_beside_change done
  have written : child = some (.file bytes) := by
    rcases found with _ | _ | _ <;> cases updated <;> rfl
  rw [beside, written]
  rfl

theorem find_removeFile {name : String} {after : FileTree} (done : tree.removeFile (way ++ [name]) = .ok after)
    (other : String) :
    after.find (way ++ [other]) = if other = name then .error .notFound else tree.find (way ++ [other]) := by
  obtain ⟨found, child, updated, beside⟩ := find_beside_change done
  have removed : child = none := by
    rcases found with _ | _ | _ <;> cases updated
    rfl
  rw [beside, removed]
  rfl

/-- What is moved to another name is written there and removed where it was. -/
theorem exists_of_rename {source target : String} {after : FileTree} (different : source ≠ target)
    (done : tree.rename (way ++ [source]) (way ++ [target]) = .ok after) :
    ∃ bytes moved, tree.find (way ++ [source]) = .ok (.file bytes) ∧
      tree.writeFile (way ++ [target]) bytes = .ok moved ∧ moved.removeFile (way ++ [source]) = .ok after := by
  have apart : way ++ [source] ≠ way ++ [target] := by simpa using different
  rw [rename] at done
  obtain ⟨found, held, replaces⟩ := bind_eq_ok_iff.mp done
  cases found with
  | directory entries => cases replaces
  | file bytes =>
    obtain ⟨moved, written, removes⟩ := bind_eq_ok_iff.mp replaces
    exact ⟨bytes, moved, held, written, (if_neg apart).symm.trans removes⟩

theorem find_rename {source target : String} {bytes : List UInt8} {after : FileTree}
    (held : tree.find (way ++ [source]) = .ok (.file bytes)) (different : source ≠ target)
    (done : tree.rename (way ++ [source]) (way ++ [target]) = .ok after) (other : String) :
    after.find (way ++ [other]) = if other = source then .error .notFound
      else if other = target then .ok (.file bytes) else tree.find (way ++ [other]) := by
  obtain ⟨moving, moved, there, written, removed⟩ := exists_of_rename different done
  cases there.symm.trans held
  rw [find_removeFile removed, find_writeFile written]

/-- What is not found is not removed, for the same reason. -/
theorem removeFile_of_find {name : String} {error : FileError} (lost : tree.find (way ++ [name]) = .error error) :
    tree.removeFile (way ++ [name]) = .error error := by
  rw [removeFile, change_child]
  rw [find_append] at lost
  cases there : tree.find way with
  | error other =>
    rw [there] at lost
    cases lost
    rfl
  | ok found =>
    rw [there] at lost
    change found.find [name] = _ at lost
    change (if _ then _ else _) = _
    rw [find_cons] at lost
    split
    next directory =>
      rw [if_pos directory] at lost
      cases held : found.child? name with
      | none =>
        rw [held] at lost
        cases lost
        rfl
      | some child =>
        rw [held] at lost
        cases lost
    next plain =>
      rw [if_neg plain] at lost
      exact lost

/-- Whether a file can be put in the place of this. -/
def isReplaceable : Option FileTree → Bool
  | some (.directory _) => false
  | _ => true

section

variable (there : tree.find way = .ok found) (directory : found.isDirectory = true)
include there directory

theorem writeFile_child (name : String) (bytes : List UInt8) : tree.writeFile (way ++ [name]) bytes =
    if isReplaceable (found.child? name) then .ok (tree.graft way (found.setChild name (some (.file bytes))))
    else .error .isADirectory := by
  rw [writeFile, change_child_of_find there directory]
  rcases found.child? name with _ | _ | _ <;> rfl

theorem removeFile_child {name : String} {bytes : List UInt8} (held : found.child? name = some (.file bytes)) :
    tree.removeFile (way ++ [name]) = .ok (tree.graft way (found.setChild name none)) := by
  rw [removeFile, change_child_of_find there directory, held]
  rfl

theorem rename_child {source target : String} {bytes : List UInt8} (held : found.child? source = some (.file bytes))
    (different : source ≠ target) : tree.rename (way ++ [source]) (way ++ [target]) =
      if isReplaceable (found.child? target) then
        .ok (tree.graft way ((found.setChild target (some (.file bytes))).setChild source none))
      else .error .isADirectory := by
  have sourced : tree.find (way ++ [source]) = .ok (.file bytes) := by
    rw [find_append, there]
    exact (find_child directory source).trans (by rw [held]; rfl)
  have apart : way ++ [source] ≠ way ++ [target] := by simpa using different
  rw [rename, sourced]
  change (tree.writeFile (way ++ [target]) bytes >>= fun moved =>
    if way ++ [source] = way ++ [target] then .ok moved else moved.removeFile (way ++ [source])) = _
  simp only [if_neg apart]
  rw [writeFile_child there directory]
  split
  · change FileTree.removeFile _ _ = _
    have kept : (found.setChild target (some (.file bytes))).child? source = some (.file bytes) := by
      rw [child?_setChild, if_neg different, held]
    rw [removeFile_child (find_graft there _) (isDirectory_setChild _ _ _) kept, graft_graft]
  · rfl

end

/-- What is to be seen of a file or a directory from outside: the bytes of the one, nothing of the other. -/
def contents : FileTree → Option (List UInt8)
  | .file bytes => some bytes
  | .directory _ => none

/-- What is to be seen at the end of the way. -/
def look (tree : FileTree) (way : List String) : Except FileError (Option (List UInt8)) := (tree.find way).map contents

theorem contents_eq_none_iff : found.contents = none ↔ found.isDirectory = true := by
  cases found <;> simp [contents, isDirectory]

theorem look_of_find (there : tree.find way = .ok found) : tree.look way = .ok found.contents := by
  rw [look, there]
  rfl

theorem exists_of_look {seen : Option (List UInt8)} (looked : tree.look way = .ok seen) :
    ∃ found, tree.find way = .ok found ∧ found.contents = seen := by
  rw [look] at looked
  cases there : tree.find way with
  | error error =>
    rw [there] at looked
    cases looked
  | ok found =>
    rw [there] at looked
    exact ⟨found, rfl, Except.ok.inj looked⟩

theorem look_eq_error_iff {error : FileError} : tree.look way = .error error ↔ tree.find way = .error error := by
  rw [look]
  cases tree.find way <;> simp [Except.map]

/-- What is put in the place of a directory shows below it only. -/
theorem look_graft {other : FileTree} (there : tree.find way = .ok found) (directory : found.isDirectory = true)
    (otherDirectory : other.isDirectory = true) (path : List String) :
    (∃ name rest, path = way ++ name :: rest) ∨ (tree.graft way other).look path = tree.look path := by
  induction way generalizing tree path with
  | nil =>
    cases there
    cases path with
    | nil =>
      rw [look_of_find rfl, look_of_find rfl, graft, contents_eq_none_iff.mpr directory,
        contents_eq_none_iff.mpr otherDirectory]
      exact .inr rfl
    | cons name rest => exact .inl ⟨name, rest, rfl⟩
  | cons first way ih =>
    rw [find_cons] at there
    split at there
    next inside =>
      split at there
      next child held =>
        cases path with
        | nil =>
          refine .inr ?_
          rw [graft, look_of_find rfl, look_of_find rfl, contents_eq_none_iff.mpr inside,
            contents_eq_none_iff.mpr (isDirectory_setChild _ _ _)]
        | cons second path =>
          have entered (tree : FileTree) (inside : tree.isDirectory = true) : tree.look (second :: path) =
              (tree.child? second).elim (.error .notFound) fun child => child.look path := by
            rw [look, find_cons, if_pos inside]
            cases tree.child? second <;> rfl
          rw [graft, entered _ (isDirectory_setChild _ _ _), entered _ inside, child?_setChild]
          by_cases here : second = first
          · rw [if_pos here, here, held]
            refine (ih there path).imp ?_ fun same => same
            rintro ⟨name, rest, rfl⟩
            exact ⟨name, rest, rfl⟩
          · rw [if_neg here]
            exact .inr rfl
      next => cases there
    next => cases there

/-- A change is seen at the name that it is made at and behind that, and nowhere else. -/
theorem look_of_change {name : String} {update : Option FileTree → Except FileError (Option FileTree)}
    {after : FileTree} (changed : tree.change (way ++ [name]) update = .ok after) :
    ∃ old new, update old = .ok new ∧ ∀ path, after.look path = tree.look path ∨ ∃ rest, path = way ++ name :: rest ∧
      tree.look path = old.elim (.error .notFound) (fun child => child.look rest) ∧
      after.look path = new.elim (.error .notFound) (fun child => child.look rest) := by
  obtain ⟨found, child, there, directory, updated, rfl⟩ := find_of_change changed
  have inside := isDirectory_setChild found name child
  refine ⟨found.child? name, child, updated, fun path => ?_⟩
  rcases look_graft there directory inside path with ⟨other, rest, rfl⟩ | same
  · have entered {top below : FileTree} (there : top.find way = .ok below) (directory : below.isDirectory = true) :
        top.look (way ++ other :: rest) = (below.child? other).elim (.error .notFound) fun child => child.look rest := by
      rw [look, find_append, there]
      change Except.map _ (below.find (other :: rest)) = _
      rw [find_cons, if_pos directory]
      cases below.child? other <;> rfl
    rw [entered there directory, entered (find_graft there _) inside, child?_setChild]
    by_cases here : other = name
    · exact .inr ⟨rest, by rw [here], by rw [here], by rw [if_pos here]⟩
    · exact .inl (by rw [if_neg here])
  · exact .inl same

end QuorumWarden.FileTree
