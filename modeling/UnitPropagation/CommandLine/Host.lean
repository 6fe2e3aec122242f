import UnitPropagation.FileTree

namespace UnitPropagation.CommandLine

/-! What the program needs from its surroundings. -/

/-- Surroundings in which the program runs. -/
structure Host (m : Type → Type) where
  print : String → m Unit
  printError : String → m Unit
  isDirectory : String → m Bool
  /-- Whether a path leads to a file that is no device. -/
  isFile : String → m Bool
  /-- Names in a directory, in any order, each with whether it is a directory.  There are
  none if the directory cannot be read. -/
  children : String → m (List (String × Bool))
  read : String → m (Except FileError (List UInt8))
  write : String → String → m (Except FileError Unit)

/-- Surroundings held in memory: the files, and what was written to the two outputs. -/
structure Desk where
  tree : FileTree
  output : String
  errors : String

/-- Shows what was written to a device, if it is one of the two outputs. -/
def Desk.show (desk : Desk) (text : String) : Option Device → Desk
  | some .output => { desk with output := desk.output ++ text }
  | some .errors => { desk with errors := desk.errors ++ text }
  | _ => desk

def Host.inMemory : Host (StateM Desk) where
  print text := modify fun desk => { desk with output := desk.output ++ text }
  printError text := modify fun desk => { desk with errors := desk.errors ++ text }
  isDirectory path := do return (← get).tree.isDirectory path
  isFile path := do return (← get).tree.isFile path
  children path := do return (← get).tree.children path
  read path := do return (← get).tree.read path
  write path text := do
    let desk ← get
    match desk.tree.write path text.toUTF8.data.toList with
    | .ok tree =>
        set (Desk.show { desk with tree := tree } text (tree.device? path))
        return .ok ()
    | .error reason => return .error reason

end UnitPropagation.CommandLine
