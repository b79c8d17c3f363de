import ShellCompletion.FileTree.Path

/-!
# File trees

A file tree gives each place, the list of names that lead to it from the root, what is there. `locate`
walks along a path and follows symbolic links, at most `maxLinks` of them, to the place that it names.
`system` is the part of a file tree that every world has: its own programs and devices.
-/

namespace ShellCompletion

inductive SystemProgram where
  | shell
  | sleep
deriving DecidableEq, Repr

inductive Device where
  /-- Is always at its end and takes whatever is written to it. -/
  | null
  /-- Gives octets of value zero without end. -/
  | zero
  /-- Has no room for anything that is written to it. -/
  | full
  /-- The terminal of a process, which it does not have. -/
  | terminal
  /-- What a process has open under this number. -/
  | descriptor (number : Nat)
deriving DecidableEq, Repr

inductive FileNode where
  | file (content : ByteArray) (executable : Bool)
  | directory
  | link (target : String)
  | program (program : SystemProgram)
  | device (device : Device)

namespace FileNode

def isDirectory : FileNode → Bool
  | .directory => true
  | _ => false

def ofText (text : String) (executable : Bool := false) : FileNode := .file text.toUTF8 executable

def isExecutable : FileNode → Bool
  | .file _ executable => executable
  | .program _ => true
  | _ => false

end FileNode

abbrev Place := List String

structure FileTree where
  nodes : List (Place × FileNode) := []

inductive PathError where
  | missing
  | notDirectory
  | tooManyLinks
  /-- A name is longer than a file system can hold, or the whole path longer than can be asked for. -/
  | tooLong
  /-- The path holds a NUL. -/
  | badName
  /-- There is no text to be read. -/
  | notText
deriving DecidableEq, Repr

/-- An entry of a directory; links are followed to say what it is. -/
structure Listed where
  name : String
  isDirectory : Bool
  isProgram : Bool
deriving DecidableEq, Repr

namespace FileTree

def maxLinks : Nat := 40

/-- The octets of the longest name. -/
def maxName : Nat := 255

/-- The octets of the longest path. -/
def maxPath : Nat := 4095

def node? (tree : FileTree) : Place → Option FileNode
  | [] => some .directory
  | place => tree.nodes.lookup place

/-- Walks from the directory `here` along `steps`. -/
def walk (tree : FileTree) (links : Nat) (here : Place) (steps : List String) :
    Except PathError Place :=
  match steps with
  | [] => .ok here
  | step :: rest =>
    if !(tree.node? here).any FileNode.isDirectory then .error .notDirectory
    else if step = "." then walk tree links here rest
    else if step = ".." then walk tree links here.dropLast rest
    else if maxName < step.utf8ByteSize then .error .tooLong
    else
      match tree.node? (here ++ [step]) with
      | none => .error .missing
      | some (.link target) =>
        match links with
        | 0 => .error .tooManyLinks
        | links + 1 =>
          walk tree links (if Path.isAbsolute target then [] else here) (Path.steps target ++ rest)
      | some _ => walk tree links (here ++ [step]) rest
termination_by (links, steps.length)

/-- The place that `path` names, seen from the directory `base`. -/
def locate (tree : FileTree) (base : Place) (path : String) : Except PathError Place :=
  if path.isEmpty then .error .missing
  else if '\x00' ∈ path.toList then .error .badName
  else if maxPath < path.utf8ByteSize then .error .tooLong
  else tree.walk maxLinks (if Path.isAbsolute path then [] else base) (Path.steps path)

/-- What a path leads to once links are followed. -/
def find (tree : FileTree) (base : Place) (path : String) : Except PathError FileNode := do
  match tree.node? (← tree.locate base path) with
  | some node => return node
  | none => throw .missing

/-- Puts a node at a place, in the stead of what was there. -/
def put (tree : FileTree) (place : Place) (node : FileNode) : FileTree :=
  match tree.node? place with
  | some _ => { nodes := tree.nodes.map fun entry => if entry.1 = place then (place, node) else entry }
  | none => { nodes := tree.nodes ++ [(place, node)] }

/-- The names of the entries of the directory at `place`. -/
def entries (tree : FileTree) (place : Place) : List String :=
  tree.nodes.filterMap fun (other, _) =>
    if other.dropLast = place then other.getLast? else none

/-- The entries of the directory that `path` names, if there is one. Each is looked at under the path
that it has below that directory. -/
def list? (tree : FileTree) (base : Place) (path : String) : Option (List Listed) :=
  match tree.find base path with
  | .ok .directory =>
    match tree.locate base path with
    | .ok place =>
      some <| (tree.entries place).map fun name =>
        let node := (tree.find base (Path.join path name)).toOption
        { name
          isDirectory := node.any FileNode.isDirectory
          isProgram := node.any FileNode.isExecutable }
    | .error _ => none
  | _ => none

/-- Makes the directories along `steps` that are not there yet and gives the place of the last. -/
def makeDirectories (tree : FileTree) (here : Place) : List String → FileTree × Place
  | [] => (tree, here)
  | step :: rest =>
    match tree.walk maxLinks here [step] with
    | .ok place => makeDirectories tree place rest
    | .error _ => makeDirectories (tree.put (here ++ [step]) .directory) (here ++ [step]) rest

/-- Puts a node at a path below `base`, after the directories that lead there. -/
def add (tree : FileTree) (base : Place) (path : String) (node : FileNode) : FileTree :=
  let steps := (Path.steps path).filter (· != ".")
  match steps.getLast? with
  | none => tree
  | some name =>
    let (tree, directory) := tree.makeDirectories base steps.dropLast
    tree.put (directory ++ [name]) node

/-- The place of a file that is to be made under a path which leads nowhere yet. A link to nothing is made
good where it points. -/
def vacancy (tree : FileTree) (links : Nat) (base : Place) (path : String) : Except PathError Place := do
  let (directory, name) := Text.cutLast '/' path.toList
  if name.isEmpty then throw .missing
  let name := String.ofList name
  if FileTree.maxName < name.utf8ByteSize then throw .tooLong
  let directory ← tree.locate base (if directory.isEmpty then "." else String.ofList directory)
  if !(tree.node? directory).any FileNode.isDirectory then throw .notDirectory
  match tree.node? (directory ++ [name]), links with
  | some (.link target), links + 1 => tree.vacancy links directory target
  | some (.link _), 0 => throw .tooManyLinks
  | _, _ => return directory ++ [name]

/-- Writes a file where `path` leads, or makes it where its directory leads. -/
def write (tree : FileTree) (base : Place) (path : String) (content : ByteArray) :
    Except PathError FileTree :=
  match tree.locate base path with
  | .ok place =>
    match tree.node? place with
    | some (.file _ executable) => .ok (tree.put place (.file content executable))
    | _ => .error .notDirectory
  | .error .missing => do
    let place ← tree.vacancy maxLinks base path
    return tree.put place (.file content false)
  | .error error => .error error

/-- The programs and devices that are there from the start. -/
def system : FileTree where
  nodes := [
    (["bin"], .directory),
    (["bin", "sh"], .program .shell),
    (["bin", "sleep"], .program .sleep),
    (["dev"], .directory),
    (["dev", "null"], .device .null),
    (["dev", "zero"], .device .zero),
    (["dev", "full"], .device .full),
    (["dev", "tty"], .device .terminal),
    (["dev", "stdin"], .device (.descriptor 0)),
    (["dev", "stdout"], .device (.descriptor 1)),
    (["dev", "stderr"], .device (.descriptor 2)),
    (["dev", "fd"], .directory)] ++
    (List.range 10).map fun number => (["dev", "fd", toString number], .device (.descriptor number))

end FileTree

end ShellCompletion
