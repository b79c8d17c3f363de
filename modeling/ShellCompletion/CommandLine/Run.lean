import ShellCompletion.CommandLine.Arguments
import ShellCompletion.CommandLine.ShellHelper
import ShellCompletion.Configuration.Text
import ShellCompletion.Grammar.Printer
import ShellCompletion.Report.Explanation
import ShellCompletion.Report.Json
import ShellCompletion.Resolver.Files
import ShellCompletion.Specification.Load
import ShellCompletion.Specification.Selection

/-!
# Running commands

`run` carries out a command in a world and gives what it prints and the error with which it fails, if it
does.
-/

namespace ShellCompletion.CommandLine

def version : String := "0.9.0"

/-- Lines, each with a newline at its end. -/
def lines (texts : List String) : String := String.join (texts.map (· ++ "\n"))

/-- Without an index, the cursor is on the last word. -/
def LineRequest.position (request : LineRequest) : Nat :=
  request.cursor.getD (request.words.length - 1)

/-- The report on a file: the commands of its specification with the numbers of their states. -/
def report {σ : Type} (path : OsText) (tree : CommandTree σ) : String :=
  let describe (path : List String) : String :=
    let states := (tree.states? path).getD []
    "   " ++ pathText path ++ " (" ++ toString states.length ++ " states)"
  lines (("✅ " ++ path.shown ++ " is valid") :: tree.paths.map describe)

/-- The functions that look at the world of the session. -/
def functions : Registry (Session World) :=
  Files.registry.within (·.outside.outlook) fun _ session => session

/-- What a command works with. -/
structure Setting where
  runner : Runner World
  world : World
  configuration : Configuration
  /-- The path of the configuration. -/
  path : OsText
  color : Bool := false

/-- What a command prints until it is done or fails. -/
structure Outcome where
  output : String
  error? : Option Error := none
deriving DecidableEq, Repr

namespace Outcome

/-- A command that prints all or nothing. -/
def ofResult : Except Error String → Outcome
  | .ok output => { output }
  | .error error => { output := "", error? := some error }

/-- Prints something before. -/
def after (before : String) (outcome : Outcome) : Outcome :=
  { outcome with output := before ++ outcome.output }

end Outcome

namespace Setting

def tree (setting : Setting) (spec : String) : Except Error (CommandTree (Session World)) :=
  CommandTree.ofFile { run := setting.runner, settings := setting.configuration.settings } functions
    setting.world (setting.configuration.specPath setting.world spec)

def engine (setting : Setting) (spec : String) : Except Error (Engine (Session World)) := do
  return { select := (← setting.tree spec).select, hops := setting.configuration.hops }

/-- The answer of an action in a new session. -/
def answer {α : Type} (setting : Setting) (action : StateM (Session World) α) : α :=
  (action { outside := setting.world }).1

def complete (setting : Setting) (request : LineRequest) : Except Error (List String) := do
  return setting.answer
    (← (← setting.engine request.spec).complete request.words request.position)

def explain (setting : Setting) (request : LineRequest) : Except Error Explanation := do
  return setting.answer
    (← (← setting.engine request.spec).explain request.words request.position)

def check (setting : Setting) (spec : String) : Except Error String := do
  return report (setting.configuration.specPath setting.world spec) (← setting.tree spec)

def tokens (setting : Setting) (spec : String) (path : List String) : Except Error (List String) := do
  match (← setting.tree spec).grammar? path with
  | some grammar => return grammar.tokens
  | none => throw (.spec (.unknownCommand (pathText path)))

/-- The verdict on the configuration file. -/
def validation (setting : Setting) : String :=
  let verdict :=
    if setting.world.exists? setting.path then
      match Configuration.ofFile setting.world setting.path with
      | .ok _ => "✅ Configuration is valid"
      | .error error => "❌ " ++ error.message
    else "❌ Configuration file does not exist"
  lines ["Validating configuration file: " ++ setting.path.shown, verdict]

def listing (setting : Setting) : Outcome :=
  (Outcome.ofResult setting.configuration.text).after
    (lines ["# Configuration file: " ++ setting.path.shown, ""])

def run (setting : Setting) : Command → Outcome
  | .complete request => .ofResult ((setting.complete request).map lines)
  | .explain request json => .ofResult <|
    (setting.explain request).map fun explanation =>
      if json then (Report.Json.ofExplanation explanation).pretty ++ "\n"
      else explanation.render setting.color
  | .check spec => .ofResult (setting.check spec)
  | .tokens spec path => .ofResult ((setting.tokens spec path).map lines)
  | .completion shell =>
    match ShellName.ofName? shell with
    | some shell => { output := shell.helper }
    | none => .ofResult (.error (.unknownShell shell))
  | .config showing validating =>
    (if showing || !validating then setting.listing else { output := "" }).after
      (if validating then setting.validation else "")

end Setting

namespace Arguments

/-- The setting that the arguments ask for. -/
def setting (arguments : Arguments) (runner : Runner World) (world : World) (terminal : Bool) :
    Except Error Setting := do
  return {
    runner, world
    configuration := ← Configuration.load world arguments.config
    path := (arguments.config.map OsText.ofText).getD (Configuration.standardPath world)
    color := terminal && !arguments.noColor }

/-- The level at which messages are logged. -/
def level (arguments : Arguments) (configuration : Configuration) : LogLevel :=
  if arguments.quiet then .error else configuration.level.raised arguments.verbosity

end Arguments

end ShellCompletion.CommandLine
