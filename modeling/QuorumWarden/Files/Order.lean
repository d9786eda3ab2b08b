import QuorumWarden.Files.Filing
import QuorumWarden.Program

/-! Orders to the file system. Whoever changes files is a program of orders, so it can break off between two of them,
and any order may fail for a reason that is not in the tree. -/

namespace QuorumWarden

/-- One thing to be done to the files, by the text of a path. -/
inductive FileOrder where
  | makeDirectory (path : String)
  | writeFile (path : String) (bytes : List UInt8)
  | rename (source target : String)
  | removeFile (path : String)
  deriving DecidableEq, Repr

abbrev FileOrder.Reply (_ : FileOrder) : Type := Except FileError Unit

abbrev FileProgram := Program FileOrder FileOrder.Reply

namespace FileOrder

/-- What the order makes of a tree. -/
def change (tree : FileTree) : FileOrder → Except FileError FileTree
  | makeDirectory path => tree.makeDirectoryAt path
  | writeFile path bytes => tree.writeAt path bytes
  | rename source target => tree.renameAt source target
  | removeFile path => tree.removeFileAt path

def give (order : FileOrder) : ExceptT FileError FileProgram Unit := ExceptT.mk (Program.perform order)

/-- Orders the directory and those above it, as far as they are missing. -/
def makeDirectories (path : String) : ExceptT FileError FileProgram Unit :=
  Filing.makeMissing (fun path => give (makeDirectory path)) (path :: Path.ancestors path)

/-- Does at once what is ordered, or nothing. -/
def carryOut (order : FileOrder) : StateM FileTree order.Reply := (Filing.once fun tree => order.change tree).run

end FileOrder

/-- Has all orders of a program carried out on a tree. -/
def FileProgram.onTree {ε α : Type} (program : ExceptT ε FileProgram α) : ExceptT ε (StateM FileTree) α :=
  ExceptT.mk (program.run.runIn FileOrder.carryOut)

end QuorumWarden
