import ShellCompletion.CommandLine.Run
import ShellCompletion.Shell.Process

/-!
# The program

Looks at the files that a command may need, runs the command in the world that they make up, and prints
its outcome. External commands are carried out in this world too; they do not change the files.
-/

namespace ShellCompletion.CommandLine

def usage : String := lines [
  "Usage: compline [OPTIONS] <COMMAND>",
  "",
  "Commands:",
  "  complete    Print the suggestions for the word at the cursor, one on each line",
  "  explain     Show how the words are read and what is suggested",
  "  check       List the commands of a specification",
  "  tokens      Print the grammar tokens of a command",
  "  completion  Print the helper for a shell",
  "  config      Show or check the configuration",
  "",
  "Options:",
  "  -c, --config <FILE>   Use this configuration file",
  "  -v, --verbose         Log more; may be repeated",
  "  -q, --quiet           Log errors only",
  "      --no-color        Print without colour",
  "  -h, --help            Print this text",
  "  -V, --version         Print the version"]

def UsageError.message : UsageError → String
  | .nothingAsked | .noCommand => "a command is required"
  | .unknownCommand => "there is no such command"
  | .unknownArgument => "unexpected argument"
  | .missingArgument => "a required argument is missing"
  | .repeated => "an option is given more than once"
  | .missingValue => "an option lacks its value"
  | .badValue => "the value of an option is not valid"
  | .unwantedValue => "an option that takes no value is given one"
  | .help | .version => ""

/-- The word that suggestions are asked for. -/
def Command.typed? : Command → Option String
  | .complete request | .explain request _ => some (request.words[request.position]?.getD "")
  | _ => none

/-- The paths of the specification that a command reads. -/
def Command.specs (directory : OsText) : Command → List OsText
  | .complete { spec, .. } | .explain { spec, .. } _ | .check spec | .tokens spec _ =>
    [spec, directory.join (Configuration.fileName spec)]
  | _ => []

/-- The directories that suggestions may come from. -/
def Command.directories (environment : Environment) (command : Command) : List OsText :=
  match command.typed? with
  | some typed =>
    Files.directoryPath environment.home? (Files.directoryPart typed) ::
      environment.searchDirectories.map OsText.ofText
  | none => []

/-- Puts a node where a path leads from the directory of the world. -/
def addNode (world : World) (path : String) (node : FileNode) : World :=
  let base := if Path.isAbsolute path then [] else world.directory
  { world with tree := world.tree.add base path node }

/-- Adds the file or directory at a path, if there is one. -/
def lookAt (world : World) (path : OsText) : IO World := do
  let some path := path.text? | return world
  if path.isEmpty then return world
  let place := (← IO.currentDir) / path
  if ← place.isDir then return addNode world path .directory
  try return addNode world path (.file (← IO.FS.readBinFile place) false)
  catch _ => return world

/-- Adds a directory and those of its entries that are not known yet. Every file counts as a program. -/
def lookInto (world : World) (path : OsText) : IO World := do
  let some path := path.text? | return world
  let place := (← IO.currentDir) / path
  unless ← place.isDir do return world
  let mut world := addNode world path .directory
  for entry in ← place.readDir do
    let path := Path.join path entry.fileName
    unless world.exists? path do
      world := addNode world path (if ← entry.path.isDir then .directory else .ofText "" true)
  return world

/-- The world before anything in it is looked at. -/
def startWorld : IO World := do
  let names := ["HOME", "PATH", "XDG_CONFIG_HOME"]
  let values ← names.mapM fun name => return (name, ← IO.getEnv name)
  let directory := Path.steps (← IO.currentDir).toString
  return {
    tree := (FileTree.system.makeDirectories [] directory).1
    directory
    environment := values.filterMap fun (name, value) => value.map fun value => (name, ↑value) }

/-- Carries out what the arguments ask for. -/
def perform (arguments : Arguments) (terminal : Bool) : IO Outcome := do
  let world ← startWorld
  let config := (arguments.config.map OsText.ofText).getD (Configuration.standardPath world)
  let world ← lookAt world config
  match arguments.setting World.runProgram world terminal with
  | .error error => return .ofResult (.error error)
  | .ok setting =>
    let command := arguments.command
    let world ← (command.directories world.environment).foldlM lookInto world
    let world ← (command.specs setting.configuration.directory).foldlM lookAt world
    return { setting with world }.run command

end ShellCompletion.CommandLine

open ShellCompletion ShellCompletion.CommandLine in
def main (arguments : List String) : IO UInt32 := do
  match Arguments.read arguments with
  | .error .help => IO.print usage; return 0
  | .error .version => IO.println ("compline " ++ version); return 0
  | .error error => IO.eprintln ("error: " ++ error.message ++ "\n\n" ++ usage); return 2
  | .ok arguments =>
    let outcome ← perform arguments (← (← IO.getStdout).isTty)
    IO.print outcome.output
    match outcome.error? with
    | none => return 0
    | some error => IO.eprintln ("Error: " ++ error.message); return 1
