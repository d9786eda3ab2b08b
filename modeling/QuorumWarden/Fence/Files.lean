import QuorumWarden.Fence.Marker
import QuorumWarden.Files.Order

/-! Markers as files of one directory. A marker is written beside its file first and
then moved over it, so that a reader finds the old text or the new one. -/

namespace QuorumWarden

/-- The directory of the markers. -/
structure MarkerFiles where
  directory : String
  deriving Repr

namespace MarkerFiles

/-- The path to a file in the directory. -/
def path (files : MarkerFiles) (name : String) : String := Path.join files.directory name

/-- Where the next text of a marker is put down before it takes the marker's place. -/
def temporary (files : MarkerFiles) (marker : Marker) : String := Path.withExtension (files.path marker.fileName) "tmp"

def read (files : MarkerFiles) (tree : FileTree) (marker : Marker) : Outcome (Option String) :=
  let path := files.path marker.fileName
  match tree.textAt path with
  | .ok text => .ok (some text)
  | .error .notFound => .ok none
  | .error error => .error ((Failure.external error.text).within ("read marker " ++ path))

/-- Moves what was put down for a marker to where the marker is read. -/
def replacing (files : MarkerFiles) (marker : Marker) : ExceptT Failure FileProgram Unit :=
  let temporary := files.temporary marker
  let path := files.path marker.fileName
  Filing.during ("replace marker " ++ temporary ++ " -> " ++ path) (FileOrder.give (.rename temporary path))

def writing (files : MarkerFiles) (marker : Marker) (text : String) : ExceptT Failure FileProgram Unit := do
  let temporary := files.temporary marker
  Filing.during ("create marker dir " ++ files.directory) (FileOrder.makeDirectories files.directory)
  Filing.during ("write marker temp " ++ temporary) (FileOrder.give (.writeFile temporary (Text.encode text)))
  files.replacing marker

def removing (files : MarkerFiles) (marker : Marker) : ExceptT Failure FileProgram Unit := ExceptT.mk do
  let path := files.path marker.fileName
  match ← Program.perform (.removeFile path) with
  | .ok () | .error .notFound => return .ok ()
  | .error error => return .error ((Failure.external error.text).within ("remove marker " ++ path))

def write (files : MarkerFiles) (marker : Marker) (text : String) : ExceptT Failure (StateM FileTree) Unit :=
  FileProgram.onTree (files.writing marker text)

def remove (files : MarkerFiles) (marker : Marker) : ExceptT Failure (StateM FileTree) Unit :=
  FileProgram.onTree (files.removing marker)

/-- Effects on a tree that holds the markers. -/
abbrev M := ReaderT MarkerFiles (StateM FileTree)

instance : MarkerStore M where
  read marker := fun files tree => (files.read tree marker, tree)
  write marker text := fun files => (files.write marker text).run
  remove marker := fun files => (files.remove marker).run

end MarkerFiles

end QuorumWarden
