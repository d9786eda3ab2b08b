import QuorumWarden.Failure
import QuorumWarden.Files.Path
import QuorumWarden.Files.Tree

/-! Filing: file operations by the texts of paths. A path is followed name by name, so that
a step up leaves what was really entered. What an operation that fails has changed by
then stays changed. -/

namespace QuorumWarden

/-- Where a path leads but for its last name, which need not be there. -/
structure Place where
  way : List String
  name : String
  mustBeDirectory : Bool
  deriving DecidableEq, Repr

def Place.location (place : Place) : List String := place.way ++ [place.name]

namespace FileTree

/-- The longest name and the longest path, in bytes. -/
def longestName : Nat := 255

def longestPath : Nat := 4095

/-- Follows names from a directory, given by the way to it, and gives the way to where they
lead. -/
def follow (tree : FileTree) (way : List String) : List String → Except FileError (List String)
  | [] => .ok way
  | name :: rest => do
    let directory ← tree.find way
    if !directory.isDirectory then .error .notADirectory
    else if name = ".." then tree.follow way.dropLast rest
    else if longestName < name.utf8ByteSize then .error .nameTooLong
    else if (directory.child? name).isSome then tree.follow (way ++ [name]) rest
    else .error .notFound

/-- Refuses the texts that are no path at all. -/
def accept (path : String) : Except FileError Unit :=
  if path.toList.contains '\x00' then .error .malformedName
  else if longestPath < path.utf8ByteSize then .error .nameTooLong
  else .ok ()

/-- The way to what the path leads to. -/
def reach (tree : FileTree) (path : String) : Except FileError (List String) := do
  accept path
  tree.follow [] (Path.components path)

/-- The place that the path names. Dots at the end name no place in a directory, and only a
directory may have slashes behind it. -/
def place (tree : FileTree) (path : String) : Except FileError Place := do
  accept path
  match (Path.pieces path).reverse.dropWhile (· == "") with
  | [] => .error .isADirectory
  | name :: above =>
    let way ← tree.follow [] (above.reverse.filter (!Path.leadsNowhere ·))
    if name = "." ∨ name = ".." then .error .isADirectory
    else if longestName < name.utf8ByteSize then .error .nameTooLong
    else .ok ⟨way, name, Path.isOpen path⟩

def isDirectoryAt (tree : FileTree) (path : String) : Bool :=
  match tree.reach path >>= tree.find with
  | .ok found => found.isDirectory
  | .error _ => false

/-- The text of the file at the path. -/
def textAt (tree : FileTree) (path : String) : Except FileError String := do
  let place ← tree.place path
  if place.mustBeDirectory then
    let _ ← tree.readBytes place.location
    .error .notADirectory
  else tree.readText place.location

/-- The text of the file at the path, if there is one. -/
def textAt? (tree : FileTree) (path : String) : Option String := (tree.textAt path).toOption

/-- What is in the directory at the path; nothing if there is none. -/
def listingAt (tree : FileTree) (path : String) : List (String × Option String) :=
  match tree.reach path with
  | .ok way => tree.listing way
  | .error _ => []

/-- Writes a file at the path, new or in place of one that is there. -/
def writeAt (tree : FileTree) (path : String) (bytes : List UInt8) : Except FileError FileTree := do
  let place ← tree.place path
  if place.mustBeDirectory then .error .isADirectory else tree.writeFile place.location bytes

/-- Makes a directory at the path unless there is one. -/
def makeDirectoryAt (tree : FileTree) (path : String) : Except FileError FileTree :=
  match tree.place path >>= fun place => tree.makeDirectory place.location with
  | .ok made => .ok made
  | .error error => if tree.isDirectoryAt path then .ok tree else .error error

def removeFileAt (tree : FileTree) (path : String) : Except FileError FileTree := do
  let place ← tree.place path
  if place.mustBeDirectory then .error .notADirectory else tree.removeFile place.location

/-- Moves a file over another one, in a single step. -/
def renameAt (tree : FileTree) (source target : String) : Except FileError FileTree := do
  let source ← tree.place source
  let target ← tree.place target
  if source.mustBeDirectory || target.mustBeDirectory then .error .notADirectory
  else tree.rename source.location target.location

end FileTree

/-- An operation on a tree. -/
abbrev Filing := ExceptT FileError (StateM FileTree)

namespace Filing

/-- Does all of a change or nothing. -/
def once (change : FileTree → Except FileError FileTree) : Filing Unit :=
  ExceptT.mk fun tree =>
    match change tree with
    | .ok after => (.ok (), after)
    | .error error => (.error error, tree)

/-- Reports a file error as a failure of the named activity. -/
def during {m : Type → Type} [Monad m] {α : Type} (activity : String) (action : ExceptT FileError m α) :
    ExceptT Failure m α :=
  ExceptT.mk do return (← action.run).mapError fun error => (Failure.external error.text).within activity

/-- Makes the first directory in this way. What it lacks above it is made of the others before. -/
def makeMissing {m : Type → Type} [Monad m] (make : String → ExceptT FileError m Unit) :
    List String → ExceptT FileError m Unit
  | [] => throw .notFound
  | path :: above => do
    try make path
    catch error =>
      if error ≠ .notFound then throw error
      makeMissing make above
      make path

/-- Writes a file, new or in place of one that is there. -/
def write (path : String) (bytes : List UInt8) : Filing Unit := once (·.writeAt path bytes)

/-- Makes a directory unless it is there. -/
def makeDirectory (path : String) : Filing Unit := once (·.makeDirectoryAt path)

/-- Makes the directory and those above it, as far as they are missing. -/
def makeDirectories (path : String) : Filing Unit := makeMissing makeDirectory (path :: Path.ancestors path)

/-- Writes a file and makes the directories above it. -/
def put (path : String) (bytes : List UInt8) : Filing Unit := do
  (Path.parent? path).forM makeDirectories
  write path bytes

/-- Moves a file over another one, in a single step. -/
def rename (source target : String) : Filing Unit := once (·.renameAt source target)

/-- Removes a file, or a directory after all that is in it. If the path leads through what was
in the directory, it is as good as removed then. -/
def discard (path : String) : Filing Unit := do
  if (← get).isDirectoryAt path then
    let way ← liftExcept ((← get).reach path)
    once (·.change way fun _ => .ok (some .empty))
    match (← get).place path with
    | .ok place => once (·.removeAll place.location)
    | .error error => if error ≠ .notFound then throw error
  else once (·.removeFileAt path)

end Filing

end QuorumWarden
