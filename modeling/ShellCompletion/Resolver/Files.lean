import ShellCompletion.FileTree.World
import ShellCompletion.Resolver.Basic

/-!
# File, directory and program names

`candidates` lists the directory that the typed text names and keeps its directory part as it was typed,
so that `~/` survives. `programs` lists the programs of the search path; text with a slash is completed
as a file name instead. Both see the file system through a listing function, so they hold for every
file system, and paths that are no UTF-8 can be listed like others.
-/

namespace ShellCompletion

namespace Files

/-- The part of a typed path up to and including its last slash. -/
def directoryPart (typed : String) : String := String.ofList (Text.cutLast '/' typed.toList).1

/-- The path of the directory that a directory part stands for. -/
def directoryPath (home : Option OsText) (directoryPart : String) : OsText :=
  if directoryPart.isEmpty then "."
  else
    match directoryPart.toList, home with
    | '~' :: '/' :: rest, some home => home.join (String.ofList rest)
    | _, _ => directoryPart

def candidates (list : OsText → Option (List Listed)) (home : Option OsText) (onlyDirectories : Bool)
    (typed : String) : List String :=
  let directory := directoryPart typed
  match list (directoryPath home directory) with
  | none => []
  | some entries =>
    (entries.filter fun entry => !onlyDirectories || entry.isDirectory).map fun entry =>
      directory ++ entry.name ++ (if entry.isDirectory then "/" else "")

/-- The programs of the directories `path` whose names begin with the typed text, ascending. -/
def programs (list : OsText → Option (List Listed)) (path : List String) (typed : String) :
    List String :=
  Names.ofList <| path.flatMap fun (directory : String) =>
    (((list directory).getD []).filter fun entry =>
      entry.isProgram && Policy.beginsWith entry.name typed).map (·.name)

def files (list : OsText → Option (List Listed)) (home : Option OsText) (typed : String) : Answer :=
  .candidates (candidates list home false typed) .path

def directories (list : OsText → Option (List Listed)) (home : Option OsText) (typed : String) :
    Answer :=
  .candidates (candidates list home true typed) .path

def executables (list : OsText → Option (List Listed)) (environment : Environment) (typed : String) :
    Answer :=
  if '/' ∈ typed.toList then files list environment.home? typed
  else .candidates (programs list environment.searchDirectories typed) .leading

/-- What functions look at: the directories of the system, as far as they can be listed, and the
environment. -/
structure Outlook where
  list : OsText → Option (List Listed)
  environment : Environment

/-- The functions that are known without being registered. -/
def registry : Registry Outlook where
  states := []
  functions := [
    ("dirs", fun request outlook =>
      (directories outlook.list outlook.environment.home? request.typed, outlook)),
    ("executables", fun request outlook =>
      (executables outlook.list outlook.environment request.typed, outlook)),
    ("files", fun request outlook =>
      (files outlook.list outlook.environment.home? request.typed, outlook))]

end Files

def World.outlook (world : World) : Files.Outlook := ⟨world.list?, world.environment⟩

end ShellCompletion
