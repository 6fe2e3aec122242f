import UnitPropagation.FileError

namespace UnitPropagation

/-! Directory trees held in memory.

A tree starts at the root of a system.  The files of interest lie in its working directory;
around that it knows the top directories of a system and its devices. -/

/-- Something that can be opened like a file and has no content of its own. -/
inductive Device where
  /-- Always empty; forgets what is written to it. -/
  | null
  /-- Without end; forgets what is written to it. -/
  | endless
  /-- Without end; has no room for anything. -/
  | full
  /-- A terminal, where there is none. -/
  | terminal
  /-- The standard output of the program. -/
  | output
  /-- The standard error output of the program. -/
  | errors
deriving DecidableEq, Repr

/-- What a name in a directory stands for. -/
inductive FileNode where
  | directory (children : List (String × FileNode))
  | file (content : List UInt8)
  | device (device : Device)

namespace FileNode

def isDirectory : FileNode → Bool
  | .directory _ => true
  | _ => false

/-- What stands in a directory under a name. -/
def child? : FileNode → String → Option FileNode
  | .directory children, name => children.lookup name
  | _, _ => none

/-- What the given names lead to, one after the other. -/
def get? : FileNode → List String → Option FileNode
  | node, [] => some node
  | node, name :: rest => (node.child? name).bind (·.get? rest)

/-- Puts a new node where the given names lead, in place of the one that is there.
Directories on the way are made if they are missing. -/
def put : FileNode → List String → FileNode → FileNode
  | _, [], new => new
  | .directory children, name :: rest, new =>
      if (children.lookup name).isSome then
        .directory (children.map fun (other, child) =>
          (other, if other = name then child.put rest new else child))
      else .directory (children ++ [(name, put (.directory []) rest new)])
  | node, _, _ => node

mutual

/-- All files, each under the names that lead to it. -/
def files : FileNode → List (List String × List UInt8)
  | .directory children => filesOf children
  | .file content => [([], content)]
  | .device _ => []

/-- All files that are among or below the given children. -/
def filesOf : List (String × FileNode) → List (List String × List UInt8)
  | [] => []
  | (name, node) :: rest =>
      node.files.map (fun (names, content) => (name :: names, content)) ++ filesOf rest

end

end FileNode

/-- A directory that a path has reached: what was entered to get there from the root, each
with its name, the last first. -/
abbrev FileTrail := List (String × FileNode)

def FileTrail.names (trail : FileTrail) : List String := (trail.map Prod.fst).reverse

/-- Where a path ends. -/
inductive FilePlace where
  /-- In a directory, without a name for it. -/
  | directory (trail : FileTrail)
  /-- With a name in a directory, which a slash may follow. -/
  | named (trail : FileTrail) (name : String) (slash : Bool)

structure FileTree where
  root : FileNode

namespace FileTree

/-- The names of the working directory.  No path can spell the last of them, so that only
paths relative to the directory lead into it. -/
def workingDirectory : List String := ["tmp", ""]

def systemDirectories : List (List String) :=
  [["bin"], ["boot"], ["dev", "fd"], ["dev", "pts"], ["dev", "shm"], ["etc"], ["home"], ["lib"],
   ["media"], ["mnt"], ["opt"], ["proc", "self", "fd"], ["root"], ["run"], ["sbin"], ["srv"],
   ["sys"], ["usr"], ["var"], workingDirectory]

/-- The devices of a system.  The standard input of the program is empty. -/
def systemDevices : List (List String × Device) :=
  [(["dev", "null"], .null), (["dev", "zero"], .endless), (["dev", "random"], .endless),
   (["dev", "urandom"], .endless), (["dev", "full"], .full), (["dev", "tty"], .terminal),
   (["dev", "stdin"], .null), (["dev", "stdout"], .output), (["dev", "stderr"], .errors),
   (["dev", "fd", "0"], .null), (["dev", "fd", "1"], .output), (["dev", "fd", "2"], .errors),
   (["proc", "self", "fd", "0"], .null), (["proc", "self", "fd", "1"], .output),
   (["proc", "self", "fd", "2"], .errors)]

/-- Whether names lead into a directory that shows the state of the system, in which no file
can be made. -/
def isFixed (names : List String) : Bool :=
  names.take 1 = ["proc"] || names.take 2 = ["dev", "fd"]

/-- A tree whose working directory is empty. -/
def empty : FileTree :=
  let nodes := systemDirectories.map (·, FileNode.directory []) ++
    systemDevices.map fun (names, device) => (names, .device device)
  ⟨nodes.foldl (fun root (names, node) => root.put names node) (.directory [])⟩

/-- Puts a node where names from the root lead. -/
def put (tree : FileTree) (names : List String) (node : FileNode) : FileTree :=
  ⟨tree.root.put names node⟩

/-- No name of an entry has more bytes. -/
def maxNameSize : Nat := 255

/-- No path has more bytes. -/
def maxPathSize : Nat := 4095

/-- The directory at the end of a trail. -/
def current (tree : FileTree) (trail : FileTrail) : FileNode :=
  match trail with
  | [] => tree.root
  | (_, node) :: _ => node

/-- The trail to the working directory. -/
def start (tree : FileTree) : FileTrail :=
  workingDirectory.foldl (fun trail name =>
    (name, ((tree.current trail).child? name).getD (.directory [])) :: trail) []

/-- Looks for a name at the end of a trail; one that is too long is refused. -/
def look (tree : FileTree) (trail : FileTrail) (name : String) :
    Except FileError (Option FileNode) :=
  if maxNameSize < name.utf8ByteSize then .error .nameTooLong
  else .ok ((tree.current trail).child? name)

/-- Follows the parts of a path from the end of a trail up to its last name.  All names
before that must be those of directories.  The root is its own parent. -/
def follow (tree : FileTree) : FileTrail → List String → Except FileError FilePlace
  | trail, [] => .ok (.directory trail)
  | trail, part :: rest =>
      if part = "" ∨ part = "." then tree.follow trail rest
      else if part = ".." then tree.follow trail.tail rest
      else if rest.all (· = "") then .ok (.named trail part (!rest.isEmpty))
      else
        match tree.look trail part with
        | .ok (some (.directory children)) =>
            tree.follow ((part, .directory children) :: trail) rest
        | .ok (some _) => .error .notDirectory
        | .ok none => .error .missing
        | .error reason => .error reason

/-- The parts of a path between slashes. -/
def pathParts (path : String) : List String :=
  (path.toList.splitOnP (· = '/')).map String.ofList

def isAbsolute (path : String) : Bool := path.toList.head? = some '/'

/-- The path of a name in a directory; an absolute name stands for itself. -/
def joinPath (directory name : String) : String :=
  if isAbsolute name then name
  else if directory.toList.getLast? = some '/' then directory ++ name
  else directory ++ "/" ++ name

/-- Where a path ends; an empty path leads nowhere. -/
def place (tree : FileTree) (path : String) : Except FileError FilePlace :=
  if path.toList.contains '\x00' then .error .nulInPath
  else if path.isEmpty then .error .missing
  else if maxPathSize < path.utf8ByteSize then .error .nameTooLong
  else tree.follow (if isAbsolute path then [] else tree.start) (pathParts path)

/-- What a path leads to.  A slash after a name asks for a directory. -/
def find (tree : FileTree) (path : String) : Except FileError FileNode :=
  match tree.place path with
  | .error reason => .error reason
  | .ok (.directory trail) => .ok (tree.current trail)
  | .ok (.named trail name slash) =>
      match tree.look trail name with
      | .error reason => .error reason
      | .ok none => .error .missing
      | .ok (some node) => if slash && !node.isDirectory then .error .notDirectory else .ok node

def isDirectory (tree : FileTree) (path : String) : Bool :=
  match tree.find path with
  | .ok (.directory _) => true
  | _ => false

def isFile (tree : FileTree) (path : String) : Bool :=
  match tree.find path with
  | .ok (.file _) => true
  | _ => false

/-- The device to which a path leads, if it leads to one. -/
def device? (tree : FileTree) (path : String) : Option Device :=
  match tree.find path with
  | .ok (.device device) => some device
  | _ => none

/-- The names in a directory that a path can spell, each with whether it is a directory. -/
def children (tree : FileTree) (path : String) : List (String × Bool) :=
  match tree.find path with
  | .ok (.directory children) =>
      (children.filter (·.1 ≠ "")).map fun (name, node) => (name, node.isDirectory)
  | _ => []

def read (tree : FileTree) (path : String) : Except FileError (List UInt8) :=
  match tree.find path with
  | .ok (.file content) => .ok content
  | .ok (.directory _) => .error .isDirectory
  | .ok (.device .null) => .ok []
  | .ok (.device .terminal) => .error .noDevice
  | .ok (.device _) => .error (.other "the content has no end")
  | .error reason => .error reason

/-- Writes a file, new or in place of an old one.  A slash after its name is refused before
anything is looked for under that name. -/
def write (tree : FileTree) (path : String) (content : List UInt8) : Except FileError FileTree :=
  match tree.place path with
  | .error reason => .error reason
  | .ok (.directory _) => .error .isDirectory
  | .ok (.named _ _ true) => .error .isDirectory
  | .ok (.named trail name false) =>
      match tree.look trail name with
      | .error reason => .error reason
      | .ok (some (.directory _)) => .error .isDirectory
      | .ok (some (.device .full)) => .error .noSpace
      | .ok (some (.device .terminal)) => .error .noDevice
      | .ok (some (.device _)) => .ok tree
      | .ok (some (.file _)) => .ok (tree.put (trail.names ++ [name]) (.file content))
      | .ok none =>
          if isFixed trail.names then .error .missing
          else .ok (tree.put (trail.names ++ [name]) (.file content))

/-- Adds a file to the working directory, with all directories around it; a path that ends
in a slash is a directory. -/
def addPath (tree : FileTree) (path : String) (content : List UInt8) : FileTree :=
  let names := workingDirectory ++ (pathParts path).filter fun part => part ≠ "" && part ≠ "."
  if (pathParts path).getLast? ≠ some "" then tree.put names (.file content)
  else if (tree.root.get? names).isSome then tree
  else tree.put names (.directory [])

/-- The tree whose working directory holds the given files. -/
def ofFiles (files : List (String × List UInt8)) : FileTree :=
  files.foldl (fun tree (path, content) => tree.addPath path content) empty

/-- Whether a file with the given content stands where names lead. -/
def holds (node : FileNode) (names : List String) (content : List UInt8) : Bool :=
  match node.get? names with
  | some (.file old) => old = content
  | _ => false

/-- The files below the working directory that `tree` has and `before` has not, or not with
the same content, each under its path from there. -/
def changedSince (tree before : FileTree) : List (String × List UInt8) :=
  let files := (tree.current tree.start).files.filter fun (names, content) =>
    !holds (before.current before.start) names content
  files.map fun (names, content) => (String.intercalate "/" names, content)

end FileTree

end UnitPropagation
