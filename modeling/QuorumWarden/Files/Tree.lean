import QuorumWarden.Text.Utf8

/-! A tree of files and directories with the operations that a node needs, each failing
where the file system would: a path that ends in nothing, leads through a file, or
stops at the wrong kind of thing. Paths are lists of names here, from the top down. -/

namespace QuorumWarden

/-- Why a file operation fails. A system has more reasons of its own, and its own words for them. -/
inductive FileError where
  | notFound
  | notADirectory
  | isADirectory
  | alreadyExists
  | nameTooLong
  | malformedName
  | notText
  | other (text : String)
  deriving DecidableEq, Repr

def FileError.text : FileError → String
  | .notFound => "No such file or directory (os error 2)"
  | .notADirectory => "Not a directory (os error 20)"
  | .isADirectory => "Is a directory (os error 21)"
  | .alreadyExists => "File exists (os error 17)"
  | .nameTooLong => "File name too long (os error 36)"
  | .malformedName => "file name contained an unexpected NUL byte"
  | .notText => "stream did not contain valid UTF-8"
  | .other text => text

inductive FileTree where
  | file (bytes : List UInt8)
  | directory (entries : List (String × FileTree))

namespace FileTree

def empty : FileTree := .directory []

def isDirectory : FileTree → Bool
  | .directory _ => true
  | .file _ => false

def entries : FileTree → List (String × FileTree)
  | .directory entries => entries
  | .file _ => []

def child? (tree : FileTree) (name : String) : Option FileTree := tree.entries.lookup name

def setChild (tree : FileTree) (name : String) (child : Option FileTree) : FileTree :=
  let others := tree.entries.filter (·.1 != name)
  match child with
  | none => .directory others
  | some child => .directory ((name, child) :: others)

/-- What the path leads to. -/
def find (tree : FileTree) : List String → Except FileError FileTree
  | [] => .ok tree
  | name :: rest =>
    if tree.isDirectory then
      match tree.child? name with
      | some child => child.find rest
      | none => .error .notFound
    else .error .notADirectory

/-- Replaces what the last name on the path stands for, in a directory that exists. -/
def change (tree : FileTree) :
    List String → (Option FileTree → Except FileError (Option FileTree)) → Except FileError FileTree
  | [], _ => .error .isADirectory
  | [name], update =>
    if tree.isDirectory then (update (tree.child? name)).map (tree.setChild name)
    else .error .notADirectory
  | name :: rest, update =>
    if tree.isDirectory then
      match tree.child? name with
      | some child => (child.change rest update).map fun changed => tree.setChild name (some changed)
      | none => .error .notFound
    else .error .notADirectory

def readBytes (tree : FileTree) (path : List String) : Except FileError (List UInt8) := do
  match ← tree.find path with
  | .file bytes => .ok bytes
  | .directory _ => .error .isADirectory

def readText (tree : FileTree) (path : List String) : Except FileError String := do
  match Text.decode? (← tree.readBytes path) with
  | some text => .ok text
  | none => .error .notText

/-- Writes a file, new or in place of one that is there. -/
def writeFile (tree : FileTree) (path : List String) (bytes : List UInt8) : Except FileError FileTree :=
  tree.change path fun
    | some (.directory _) => .error .isADirectory
    | _ => .ok (some (.file bytes))

def makeDirectory (tree : FileTree) (path : List String) : Except FileError FileTree :=
  tree.change path fun
    | some _ => .error .alreadyExists
    | none => .ok (some empty)

def removeFile (tree : FileTree) (path : List String) : Except FileError FileTree :=
  tree.change path fun
    | some (.file _) => .ok none
    | some (.directory _) => .error .isADirectory
    | none => .error .notFound

/-- Removes a file or a directory with all that is in it. -/
def removeAll (tree : FileTree) (path : List String) : Except FileError FileTree :=
  tree.change path fun
    | some _ => .ok none
    | none => .error .notFound

/-- Moves a file over another one, in a single step. -/
def rename (tree : FileTree) (source target : List String) : Except FileError FileTree := do
  match ← tree.find source with
  | .directory _ => .error .isADirectory
  | .file bytes =>
    let moved ← tree.change target fun
      | some (.directory _) => .error .isADirectory
      | _ => .ok (some (.file bytes))
    if source = target then .ok moved else moved.removeFile source

/-- The names in a directory with the texts of the files among them, in order. -/
def listing (tree : FileTree) (path : List String) : List (String × Option String) :=
  match tree.find path with
  | .ok (.directory entries) =>
    (entries.map fun (name, entry) =>
      match entry with
      | .file bytes => (name, Text.decode? bytes)
      | .directory _ => (name, none)).mergeSort fun a b => decide (a.1 ≤ b.1)
  | _ => []

end FileTree

end QuorumWarden
