import Mathlib.Data.List.Sort
import QuorumWarden.Fence.Ledger
import QuorumWarden.Proofs.MarkerDirectory

/-! A directory that holds markers and nothing else. It is missing until the first of them is written, and then it has
one file for each that is set. -/

namespace QuorumWarden

namespace Marker

/-- The files of the markers that are set, in the order of their names, with what is made of each text. -/
def files {α : Type} (texts : Marker → Option String) (make : String → α) : List (String × α) :=
  [registration, readonlyLock, zombieLock].filterMap fun marker =>
    (texts marker).map fun text => (marker.fileName, make text)

variable {α : Type} {texts : Marker → Option String} {make : String → α}

theorem mem_files_iff {name : String} {made : α} : (name, made) ∈ files texts make ↔
    ∃ marker text, texts marker = some text ∧ name = marker.fileName ∧ made = make text := by
  constructor
  · intro member
    obtain ⟨marker, _, shown⟩ := List.mem_filterMap.mp member
    obtain ⟨text, set, same⟩ := Option.map_eq_some_iff.mp shown
    cases same
    exact ⟨marker, text, set, rfl, rfl⟩
  · rintro ⟨marker, text, set, rfl, rfl⟩
    refine List.mem_filterMap.mpr ⟨marker, by cases marker <;> simp, ?_⟩
    rw [set]
    rfl

theorem files_ascending (texts : Marker → Option String) (make : String → α) :
    (files texts make).Pairwise fun one other => one.1 < other.1 := by
  have names : [registration, readonlyLock, zombieLock].Pairwise fun one other => one.fileName < other.fileName := by
    decide
  rw [files, List.pairwise_filterMap]
  refine names.imp fun less one here other there => ?_
  obtain ⟨_, _, rfl⟩ := Option.map_eq_some_iff.mp here
  obtain ⟨_, _, rfl⟩ := Option.map_eq_some_iff.mp there
  exact less

theorem nodup_files (texts : Marker → Option String) (make : String → α) : (files texts make).Nodup :=
  (files_ascending texts make).imp fun less same => String.ne_of_lt less (congrArg Prod.fst same)

end Marker

theorem Markers.set_get (markers : Markers) (marker : Marker) :
    markers.set marker (markers.get marker) = markers := by cases marker <;> rfl

namespace FileTree

/-- A directory with the files of these markers and nothing else. -/
structure Holds (found : FileTree) (markers : Markers) : Prop where
  directory : found.isDirectory = true
  distinct : (found.entries.map Prod.fst).Nodup
  files : ∀ marker, found.child? marker.fileName = (markers.get marker).map fun text => .file (Text.encode text)
  nothingElse : ∀ name, (∀ marker : Marker, name ≠ marker.fileName) → found.child? name = none

variable {found after : FileTree} {markers : Markers}

theorem distinct_setChild (distinct : (found.entries.map Prod.fst).Nodup) (name : String) (child : Option FileTree) :
    ((found.setChild name child).entries.map Prod.fst).Nodup := by
  have others : ((found.entries.filter (·.1 != name)).map Prod.fst).Nodup :=
    distinct.sublist (List.filter_sublist.map Prod.fst)
  cases child with
  | none => exact others
  | some child =>
    change (name :: (found.entries.filter (·.1 != name)).map Prod.fst).Nodup
    exact List.nodup_cons.mpr ⟨by simp, others⟩

theorem holds_empty (unset : ∀ marker, markers.get marker = none) : empty.Holds markers where
  directory := rfl
  distinct := List.nodup_nil
  files marker := by rw [unset]; rfl
  nothingElse _ _ := rfl

private theorem mem_entries_iff {entries : List (String × FileTree)} (distinct : (entries.map Prod.fst).Nodup)
    {name : String} {child : FileTree} : (name, child) ∈ entries ↔ entries.lookup name = some child := by
  induction entries with
  | nil => simp
  | cons entry rest ih =>
    obtain ⟨absent, distinct⟩ := List.nodup_cons.mp distinct
    rw [List.mem_cons, List.lookup_cons]
    by_cases here : name = entry.1
    · have none : (name, child) ∉ rest := fun member => absent (here ▸ List.mem_map_of_mem member)
      simp only [here, beq_self_eq_true, Option.some.injEq]
      constructor
      · rintro (same | member)
        · rw [← same]
        · exact absurd member (here ▸ none)
      · intro same
        exact Or.inl (by rw [← same])
    · rw [beq_false_of_ne here, ← ih distinct]
      exact or_iff_right fun same => here (congrArg Prod.fst same)

namespace Holds

variable (holds : found.Holds markers)
include holds

/-- Whatever the order of the changes, what comes of them is read off name by name. -/
theorem set {marker : Marker} {text : Option String} (directory : after.isDirectory = true)
    (distinct : (after.entries.map Prod.fst).Nodup)
    (changed : ∀ name, after.child? name =
      if name = marker.fileName then text.map fun text => .file (Text.encode text) else found.child? name) :
    after.Holds (markers.set marker text) where
  directory := directory
  distinct := distinct
  files other := by
    rw [changed]
    by_cases here : other = marker
    · rw [here, if_pos rfl, Markers.get_set_self]
    · rw [if_neg (Marker.fileName_injective.ne here), holds.files, Markers.get_set_of_ne _ _ here]
  nothingElse name none := by rw [changed, if_neg (none marker), holds.nothingElse name none]

theorem child?_temporaryName (marker : Marker) : found.child? marker.temporaryName = none :=
  holds.nothingElse _ fun other => (other.fileName_ne_temporaryName marker).symm

theorem isReplaceable (marker : Marker) : FileTree.isReplaceable (found.child? marker.fileName) = true := by
  rw [holds.files]
  cases markers.get marker <;> rfl

theorem entries_perm : found.entries.Perm (Marker.files markers.get fun text => .file (Text.encode text)) := by
  refine (List.perm_ext_iff_of_nodup (holds.distinct.of_map _) (Marker.nodup_files _ _)).mpr fun ⟨name, child⟩ => ?_
  rw [mem_entries_iff holds.distinct, Marker.mem_files_iff]
  change found.child? name = _ ↔ _
  constructor
  · intro held
    by_cases marked : ∃ marker : Marker, name = marker.fileName
    · obtain ⟨marker, rfl⟩ := marked
      rw [holds.files, Option.map_eq_some_iff] at held
      obtain ⟨text, set, rfl⟩ := held
      exact ⟨marker, text, set, rfl, rfl⟩
    · rw [holds.nothingElse name fun marker same => marked ⟨marker, same⟩] at held
      cases held
  · rintro ⟨marker, text, set, rfl, rfl⟩
    rw [holds.files, set]
    rfl

end Holds

end FileTree

namespace MarkerFiles

/-- A tree with these markers. As long as none is set, the directory may be missing. -/
inductive Keeps (files : MarkerFiles) (tree : FileTree) (markers : Markers) : Prop where
  | missing (lacks : tree.Lacks files.directory) (unset : ∀ marker, markers.get marker = none)
  | made {way : List String} {found : FileTree} (lies : files.LiesAt tree way) (there : tree.find way = .ok found)
      (holds : found.Holds markers)

namespace Keeps

variable {files : MarkerFiles} {tree : FileTree} {markers : Markers}

theorem lost_of_lacks (lacks : tree.Lacks files.directory) :
    tree.follow [] (Path.components files.directory) = .error .notFound := by
  rw [← FileTree.reach_of_follow (FileTree.accept_of_reach_lost lacks.missing) _ rfl, lacks.missing]

variable (room : files.HasRoom) (keeps : files.Keeps tree markers)
include room keeps

theorem entry_fileName (marker : Marker) : files.entry tree marker.fileName =
    ((markers.get marker).map fun text => FileTree.file (Text.encode text)).elim (.error .notFound) .ok := by
  cases keeps with
  | missing lacks unset =>
    rw [entry_of_lost (room marker).1 (lost_of_lacks lacks), unset]
    rfl
  | made lies there holds =>
    rw [entry_of_liesAt (room marker).1 lies, FileTree.find_append, there, ← holds.files]
    exact FileTree.find_child holds.directory _

theorem read (marker : Marker) : files.read tree marker = .ok (markers.get marker) := by
  have found := keeps.entry_fileName room marker
  cases held : markers.get marker with
  | none =>
    rw [held] at found
    exact read_absent found
  | some text =>
    rw [held] at found
    exact read_file found

theorem makeDirectories : ∃ made way found, (Filing.makeDirectories files.directory).run tree = (.ok (), made) ∧
    files.LiesAt made way ∧ made.find way = .ok found ∧ found.Holds markers := by
  cases keeps with
  | missing lacks unset =>
    obtain ⟨made, way, done, reached, created⟩ := Filing.makeDirectories_of_lacks lacks
    rw [FileTree.reach_of_follow (FileTree.accept_of_reach reached) _ rfl] at reached
    exact ⟨made, way, .empty, done, reached, created, FileTree.holds_empty unset⟩
  | @made way found lies there holds =>
    have done := makeDirectories_of_liesAt (room .readonlyLock).1 lies there holds.directory
    exact ⟨tree, way, found, done, lies, there, holds⟩

theorem write (marker : Marker) (text : String) :
    ∃ after, (files.write marker text).run tree = (.ok (), after) ∧
      files.Keeps after (markers.set marker (some text)) := by
  obtain ⟨made, way, found, done, lies, there, holds⟩ := keeps.makeDirectories room
  have different := marker.fileName_ne_temporaryName marker
  have free : FileTree.isReplaceable (found.child? marker.temporaryName) = true := by
    rw [holds.child?_temporaryName]
    rfl
  let file := some (FileTree.file (Text.encode text))
  have replaceable : FileTree.isReplaceable ((found.setChild marker.temporaryName file).child? marker.fileName) =
      true := by
    rw [FileTree.child?_setChild, if_neg different]
    exact holds.isReplaceable marker
  have kept : FileTree.isReplaceable ((((found.setChild marker.temporaryName file).setChild marker.fileName file)).child?
      marker.temporaryName) = true := by
    rw [FileTree.child?_setChild, if_neg different.symm, FileTree.child?_setChild_self]
    rfl
  have put := FileTree.isDirectory_setChild found marker.temporaryName file
  have spares := ((FileTree.spares_setChild holds.directory free file).trans
    (FileTree.spares_setChild put replaceable file)).trans
      (FileTree.spares_setChild (FileTree.isDirectory_setChild _ _ _) kept none)
  have placed := FileTree.find_graft there (found.setChild marker.temporaryName file)
  rw [write_run (room marker).2 text done lies there holds.directory free,
    replacing_run room (lies.graft there holds.directory (FileTree.spares_setChild holds.directory free file)) placed put
      (FileTree.child?_setChild_self _ _ _) replaceable, FileTree.graft_graft]
  refine ⟨_, rfl, .made (lies.graft there holds.directory spares) (FileTree.find_graft there _)
    (holds.set (FileTree.isDirectory_setChild _ _ _) ?_ ?_)⟩
  · have put := FileTree.distinct_setChild holds.distinct marker.temporaryName (some (.file (Text.encode text)))
    exact FileTree.distinct_setChild (FileTree.distinct_setChild put _ _) _ _
  · intro name
    rw [FileTree.child?_setChild, FileTree.child?_setChild, FileTree.child?_setChild]
    by_cases temporary : name = marker.temporaryName
    · rw [if_pos temporary, temporary, if_neg different.symm, holds.child?_temporaryName]
    · rw [if_neg temporary, if_neg temporary]
      rfl

theorem remove (marker : Marker) :
    ∃ after, (files.remove marker).run tree = (.ok (), after) ∧ files.Keeps after (markers.set marker none) := by
  cases held : markers.get marker with
  | none =>
    have found := keeps.entry_fileName room marker
    have same : markers.set marker none = markers := by rw [← held, Markers.set_get]
    rw [held] at found
    exact ⟨tree, remove_absent found, by rwa [same]⟩
  | some text =>
    cases keeps with
    | missing lacks unset =>
      rw [unset] at held
      cases held
    | @made way found lies there holds =>
      have file : found.child? marker.fileName = some (.file (Text.encode text)) := by
        rw [holds.files, held]
        rfl
      have spares := FileTree.spares_setChild holds.directory (holds.isReplaceable marker) none
      refine ⟨_, remove_run room lies there holds.directory file, .made (lies.graft there holds.directory spares)
        (FileTree.find_graft there _) ?_⟩
      exact holds.set (FileTree.isDirectory_setChild _ _ _) (FileTree.distinct_setChild holds.distinct _ _)
        fun name => FileTree.child?_setChild _ _ _ _

end Keeps

/-- Names that all differ stand in one order only. -/
private theorem mergeSort_eq_of_perm {entries sorted : List (String × Option String)} (perm : entries.Perm sorted)
    (ascending : sorted.Pairwise fun one other => one.1 < other.1) :
    (entries.mergeSort fun one other => decide (one.1 ≤ other.1)) = sorted := by
  have distinct : (sorted.map Prod.fst).Nodup :=
    List.pairwise_map.mpr (ascending.imp String.ne_of_lt)
  have same := (List.mergeSort_perm entries fun one other => decide (one.1 ≤ other.1)).trans perm
  have rising := ascending.imp fun less => String.not_lt.mp (String.lt_asymm less)
  refine same.eq_of_pairwise (fun one other here there below above => ?_)
    ((List.pairwise_mergeSort ?_ ?_ entries).imp of_decide_eq_true) rising
  · exact List.inj_on_of_nodup_map distinct (same.subset here) there (String.le_antisymm below above)
  · intro one other third
    simpa using String.le_trans
  · intro one other
    simpa using String.le_total one.1 other.1

theorem Keeps.listing {files : MarkerFiles} {tree : FileTree} {markers : Markers} (room : files.HasRoom)
    (keeps : files.Keeps tree markers) : tree.listingAt files.directory = Marker.files markers.get some := by
  cases keeps with
  | missing lacks unset =>
    rw [FileTree.listingAt, lacks.missing]
    simp [Marker.files, unset]
  | @made way found lies there holds =>
    have reached : tree.reach files.directory = .ok way :=
      (FileTree.reach_of_follow (accept_directory (room .readonlyLock).1) _ rfl).trans lies
    cases found with
    | file bytes => cases holds.directory
    | directory entries =>
      rw [FileTree.listingAt, reached]
      change tree.listing way = _
      rw [FileTree.listing, there]
      refine mergeSort_eq_of_perm ((holds.entries_perm.map _).trans (.of_eq ?_)) (Marker.files_ascending _ _)
      simp only [Marker.files, List.map_filterMap, Option.map_map, Function.comp_def, Text.decode?_encode]

end MarkerFiles

end QuorumWarden
