import ShellCompletion.Environment
import ShellCompletion.FileTree.Basic

/-!
# The world of a request

What a resolver may look at outside the request: the file tree, the directory in which the program runs,
and the environment it was started with. The names in a file tree are texts, so a path that is no UTF-8
leads nowhere.
-/

namespace ShellCompletion

structure World where
  tree : FileTree := {}
  directory : Place := []
  environment : Environment := []

namespace World

def list? (world : World) (path : OsText) : Option (List Listed) :=
  path.text?.bind (world.tree.list? world.directory)

def find (world : World) (path : OsText) : Except PathError FileNode :=
  match path.text? with
  | some path => world.tree.find world.directory path
  | none => .error .missing

/-- The path leads to something once links are followed. -/
def exists? (world : World) (path : OsText) : Bool := (world.find path).toOption.isSome

def readFile (world : World) (path : OsText) : Except PathError String := do
  match ← world.find path with
  | .file content _ =>
    match String.fromUTF8? content with
    | some text => return text
    | none => throw .notText
  | _ => throw .notText

end World

end ShellCompletion
