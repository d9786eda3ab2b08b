import QuorumWarden.Text.Split

/-! Paths as texts, separated by slashes. What a path leads to is a matter of the tree in
which it is followed; here are the parts that show in the text itself. -/

namespace QuorumWarden.Path

/-- The stretches between the slashes, empty ones included. -/
def pieces (path : String) : List String := Text.split '/' path

/-- An empty stretch or a single dot stays where it is. -/
def leadsNowhere (piece : String) : Bool := piece == "" || piece == "."

/-- The names that lead along the path, steps up included. -/
def components (path : String) : List String := (pieces path).filter (!leadsNowhere ·)

/-- Nothing stands behind the last slash, or the path is empty. A name can be put right behind it. -/
def isOpen (path : String) : Bool := (pieces path).getLast? == some ""

/-- The path to a name in a directory. -/
def join (directory name : String) : String :=
  if isOpen directory then directory ++ name else directory ++ "/" ++ name

/-- The stretches from the last one that leads somewhere back to the first. -/
def backwards (path : String) : List String := (pieces path).reverse.dropWhile leadsNowhere

def ofBackwards (stretches : List String) : String := "/".intercalate (stretches.dropWhile leadsNowhere).reverse

/-- The paths that are left when the last components are taken off one by one. -/
def ancestorsFrom : List String → List String
  | [] => []
  | piece :: above =>
    let rest := ancestorsFrom above
    let parent := ofBackwards above
    if leadsNowhere piece || parent.isEmpty then rest else parent :: rest

/-- The paths of the directories above, the nearest one first. -/
def ancestors (path : String) : List String := ancestorsFrom (backwards path)

def parent? (path : String) : Option String := (ancestors path).head?

/-- A name in two at its last dot, its extension behind it. A dot in front begins no
extension. -/
def divideName (name : String) : String × Option String :=
  match (Text.split '.' name).reverse with
  | extension :: rest =>
    let stem := ".".intercalate rest.reverse
    if stem.isEmpty then (name, none) else (stem, some extension)
  | [] => (name, none)

/-- The path with another extension in place of its last one, and without what stands behind
its last name. A path that leads up at its end keeps as it is. The old extension is cut off
first: where two dots are left of the path, they stay. -/
def withExtension (path extension : String) : String :=
  match backwards path with
  | [] | ".." :: _ => path
  | name :: above =>
    let stem := (divideName name).1
    let renamed := if stem == "." && path.endsWith name then ".." else stem ++ "." ++ extension
    "/".intercalate (above.reverse ++ [renamed])

end QuorumWarden.Path
