import Mathlib.Logic.Function.Basic
import QuorumWarden.Fence.Files
import QuorumWarden.Proofs.MadeDirectories
import QuorumWarden.Proofs.ProgramRuns
import QuorumWarden.Proofs.TextRules

/-! The directory of the markers. No two markers and no temporary files get in each other's way there, so each order of
a write shows in the reading of its own marker or in none. -/

namespace QuorumWarden

namespace Marker

/-- The file in which a marker's next text is put down. -/
def temporaryName : Marker → String
  | .readonlyLock => "readonly.tmp"
  | .zombieLock => "zombie.tmp"
  | .registration => ".registration-cert.tmp"

theorem fileName_injective : Function.Injective fileName := by
  intro marker other
  cases marker <;> cases other <;> decide

/-- No temporary file is ever read as a marker. -/
theorem fileName_ne_temporaryName (marker other : Marker) : marker.fileName ≠ other.temporaryName := by
  cases marker <;> cases other <;> decide

theorem isName_fileName (marker : Marker) : Path.IsName marker.fileName := by
  cases marker <;> exact ⟨by decide, by decide⟩

theorem isName_temporaryName (marker : Marker) : Path.IsName marker.temporaryName := by
  cases marker <;> exact ⟨by decide, by decide⟩

theorem isPlain_fileName (marker : Marker) : FileTree.IsPlain marker.fileName := by
  cases marker <;> exact ⟨by decide, by decide⟩

theorem isPlain_temporaryName (marker : Marker) : FileTree.IsPlain marker.temporaryName := by
  cases marker <;> exact ⟨by decide, by decide⟩

end Marker

/-- An order that is carried out lies behind the program. -/
theorem FileProgram.onTree_ask {α : Type} {order : FileOrder} {tree after : FileTree} {reply : order.Reply}
    (answered : order.carryOut tree = (reply, after)) (rest : order.Reply → FileProgram (Outcome α)) :
    (onTree (ExceptT.mk (.ask order rest))).run tree = (onTree (ExceptT.mk (rest reply))).run after := by
  change (order.carryOut >>= fun reply => (rest reply).runIn FileOrder.carryOut) tree = _
  simp only [bind, StateT.bind, answered]
  rfl

namespace MarkerFiles

variable {files : MarkerFiles} {before after tree made found : FileTree} {marker : Marker} {way : List String}

/-- A temporary file is a marker's with another extension. A name that begins with its only dot has none to lose. -/
theorem temporary_eq (files : MarkerFiles) (marker : Marker) :
    files.temporary marker = files.path marker.temporaryName := by
  have named := marker.isName_fileName
  have whole : marker.temporaryName = (Path.divideName marker.fileName).1 ++ "." ++ "tmp" := by cases marker <;> decide
  rw [temporary, path, path, whole]
  refine Path.withExtension_join named ?_ ?_ ?_ files.directory
  · cases marker <;> decide
  · cases marker <;> decide
  · rw [← whole]
    exact marker.isName_temporaryName.undivided

/-- The directory of the markers is at the end of this way, if it is there. -/
def LiesAt (files : MarkerFiles) (tree : FileTree) (way : List String) : Prop :=
  tree.follow [] (Path.components files.directory) = .ok way

/-- The paths of the markers and of their temporary files are not too long, and are paths at all. -/
def HasRoom (files : MarkerFiles) : Prop :=
  ∀ marker : Marker, FileTree.accept (files.path marker.fileName) = .ok () ∧
    FileTree.accept (files.path marker.temporaryName) = .ok ()

theorem LiesAt.graft {other : FileTree} (lies : files.LiesAt tree way) (there : tree.find way = .ok found)
    (directory : found.isDirectory = true) (spares : found.Spares other) : files.LiesAt (tree.graft way other) way :=
  (spares.graft there directory).follow lies
    (by rw [FileTree.look_of_find there, FileTree.contents_eq_none_iff.mpr directory])

theorem accept_directory {name : String} (accepted : FileTree.accept (files.path name) = .ok ()) :
    FileTree.accept files.directory = .ok () := by
  rw [path, Path.join] at accepted
  split at accepted
  · exact FileTree.accept_of_append accepted
  · exact FileTree.accept_of_append (FileTree.accept_of_append accepted)

/-- What stands in the directory under the name. -/
def entry (files : MarkerFiles) (tree : FileTree) (name : String) : Except FileError FileTree :=
  tree.within files.directory name >>= tree.find

theorem entry_of_liesAt {name : String} (accepted : FileTree.accept (files.path name) = .ok ())
    (lies : files.LiesAt tree way) : files.entry tree name = tree.find (way ++ [name]) := by
  rw [entry, FileTree.within_of_follow accepted lies]
  rfl

theorem entry_congr {name : String} (liesBefore : files.LiesAt before way) (liesAfter : files.LiesAt after way)
    (same : after.find (way ++ [name]) = before.find (way ++ [name])) :
    files.entry after name = files.entry before name := by
  rw [entry, entry, FileTree.within, FileTree.within, liesBefore, liesAfter]
  rcases FileTree.accept (Path.join files.directory name) with _ | _
  · rfl
  · exact same

theorem entry_of_lost {name : String} (accepted : FileTree.accept (files.path name) = .ok ())
    (lost : tree.follow [] (Path.components files.directory) = .error .notFound) :
    files.entry tree name = .error .notFound := by
  rw [path] at accepted
  rw [entry, FileTree.within, accepted, lost]
  rfl

theorem textAt_fileName (files : MarkerFiles) (tree : FileTree) (marker : Marker) :
    tree.textAt (files.path marker.fileName) = files.entry tree marker.fileName >>= fun found => found.readText [] := by
  rw [path, FileTree.textAt_join marker.isName_fileName marker.isPlain_fileName, entry]
  rcases tree.within files.directory marker.fileName with _ | location
  · rfl
  · change tree.readText location = tree.find location >>= _
    rw [FileTree.readText, FileTree.readBytes]
    cases tree.find location <;> rfl

theorem read_congr (same : files.entry after marker.fileName = files.entry before marker.fileName) :
    files.read after marker = files.read before marker := by
  rw [read, read, textAt_fileName, textAt_fileName, same]

theorem read_file {text : String}
    (found : files.entry tree marker.fileName = .ok (.file (Text.encode text))) :
    files.read tree marker = .ok (some text) := by
  have held : (FileTree.file (Text.encode text)).readBytes [] = .ok (Text.encode text) := rfl
  have told : (FileTree.file (Text.encode text)).readText [] = .ok text := by
    simp only [FileTree.readText, held, bind, Except.bind, Text.decode?_encode]
  rw [read, textAt_fileName, found]
  simp only [bind, Except.bind, told]

theorem read_absent (absent : files.entry tree marker.fileName = .error .notFound) :
    files.read tree marker = .ok none := by
  rw [read, textAt_fileName, absent]
  rfl

theorem remove_absent (absent : files.entry tree marker.fileName = .error .notFound) :
    (files.remove marker).run tree = (.ok (), tree) := by
  have failed : (FileOrder.removeFile (files.path marker.fileName)).change tree = .error .notFound := by
    change tree.removeFileAt (files.path marker.fileName) = _
    rw [path, FileTree.removeFileAt_join marker.isName_fileName marker.isPlain_fileName]
    rw [entry] at absent
    cases found : tree.within files.directory marker.fileName with
    | error error =>
      rw [found] at absent
      cases absent
      rfl
    | ok location =>
      rw [found] at absent
      obtain ⟨-, way, -, rfl⟩ := FileTree.exists_of_within found
      exact FileTree.removeFile_of_find absent
  exact FileProgram.onTree_ask (Filing.once_error failed) _

theorem run_during_ok {α : Type} {action : Filing α} {value : α} {after : FileTree}
    (ran : action.run tree = (.ok value, after)) (activity : String) :
    (Filing.during activity action).run tree = (.ok value, after) := by
  change (action.run >>= _) tree = _
  simp only [bind, StateT.bind, ran]
  rfl

theorem write_eq (files : MarkerFiles) (marker : Marker) (text : String) : files.write marker text = (do
    Filing.during ("create marker dir " ++ files.directory) (Filing.makeDirectories files.directory)
    Filing.during ("write marker temp " ++ files.path marker.temporaryName)
      (Filing.write (files.path marker.temporaryName) (Text.encode text))
    FileProgram.onTree (files.replacing marker)) := by
  rw [write, writing]
  simp only [temporary_eq, FileProgram.onTree_bind, FileProgram.onTree_during, FileProgram.onTree_makeDirectories,
    FileProgram.onTree_give]
  rfl

/-- In a directory that is there nothing is made. -/
theorem makeDirectories_of_liesAt {name : String} (accepted : FileTree.accept (files.path name) = .ok ())
    (lies : files.LiesAt tree way) (there : tree.find way = .ok found) (directory : found.isDirectory = true) :
    (Filing.makeDirectories files.directory).run tree = (.ok (), tree) := by
  refine Filing.makeDirectories_of_reach ((FileTree.reach_of_follow (accept_directory accepted) _ rfl).trans lies) ?_
  rw [FileTree.look_of_find there, FileTree.contents_eq_none_iff.mpr directory]

/-- Where the temporary file can be written, nothing is left of what was there before. -/
theorem write_run (accepted : FileTree.accept (files.path marker.temporaryName) = .ok ()) (text : String)
    (ahead : (Filing.makeDirectories files.directory).run tree = (.ok (), made)) (lies : files.LiesAt made way)
    (there : made.find way = .ok found) (directory : found.isDirectory = true)
    (free : FileTree.isReplaceable (found.child? marker.temporaryName) = true) :
    (files.write marker text).run tree = (FileProgram.onTree (files.replacing marker)).run
      (made.graft way (found.setChild marker.temporaryName (some (.file (Text.encode text))))) := by
  have written : made.writeAt (files.path marker.temporaryName) (Text.encode text) =
      .ok (made.graft way (found.setChild marker.temporaryName (some (.file (Text.encode text))))) := by
    rw [path, FileTree.writeAt_join marker.isName_temporaryName marker.isPlain_temporaryName,
      FileTree.within_of_follow accepted lies]
    exact (FileTree.writeFile_child there directory _ _).trans (if_pos free)
  rw [write_eq]
  exact (Filing.run_bind_ok (run_during_ok ahead _) _).trans
    (Filing.run_bind_ok (run_during_ok (Filing.once_ok written) _) _)

theorem replacing_run (room : files.HasRoom) {bytes : List UInt8} (lies : files.LiesAt tree way)
    (there : tree.find way = .ok found) (directory : found.isDirectory = true)
    (held : found.child? marker.temporaryName = some (.file bytes))
    (free : FileTree.isReplaceable (found.child? marker.fileName) = true) :
    (FileProgram.onTree (files.replacing marker)).run tree = (.ok (), tree.graft way
      ((found.setChild marker.fileName (some (.file bytes))).setChild marker.temporaryName none)) := by
  have different := (marker.fileName_ne_temporaryName marker).symm
  have renamed : tree.renameAt (files.path marker.temporaryName) (files.path marker.fileName) = .ok (tree.graft way
      ((found.setChild marker.fileName (some (.file bytes))).setChild marker.temporaryName none)) := by
    rw [path, path, FileTree.renameAt_join marker.isName_temporaryName marker.isPlain_temporaryName _ _
      marker.isName_fileName marker.isPlain_fileName, FileTree.within_of_follow (room marker).2 lies,
      FileTree.within_of_follow (room marker).1 lies]
    exact (FileTree.rename_child there directory held different).trans (if_pos free)
  rw [replacing, temporary_eq, FileProgram.onTree_during]
  exact run_during_ok (Filing.once_ok renamed) _

theorem remove_run (room : files.HasRoom) {bytes : List UInt8} (lies : files.LiesAt tree way)
    (there : tree.find way = .ok found) (directory : found.isDirectory = true)
    (held : found.child? marker.fileName = some (.file bytes)) :
    (files.remove marker).run tree = (.ok (), tree.graft way (found.setChild marker.fileName none)) := by
  have removed : (FileOrder.removeFile (files.path marker.fileName)).change tree =
      .ok (tree.graft way (found.setChild marker.fileName none)) := by
    change tree.removeFileAt (files.path marker.fileName) = _
    rw [path, FileTree.removeFileAt_join marker.isName_fileName marker.isPlain_fileName,
      FileTree.within_of_follow (room marker).1 lies]
    exact FileTree.removeFile_child there directory held
  exact FileProgram.onTree_ask (Filing.once_ok removed) _

end MarkerFiles

end QuorumWarden
