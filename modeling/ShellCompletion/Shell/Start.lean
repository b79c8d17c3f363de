import ShellCompletion.Shell.Evaluate

/-!
# Starting a shell

The arguments of a shell are options, a script and the arguments of the script. Its variables come from
the environment.
-/

namespace ShellCompletion.Shell

open Text (Octets)
open Kernel

namespace Action

/-- The variables that every shell has, unless the environment gives them other values. -/
def standardBindings : List (String × String) := [
  ("PS1", "# "), ("PS2", "> "), ("PS4", "+ ")]

def importEnvironment (environment : List Octets) : Action Unit := modify fun state =>
  let standard := standardBindings ++ [("PATH", String.ofList Builtin.standardPath)]
  let state := standard.foldl (fun state (name, value) =>
    state.setBinding name.toList { value := some value.toList }) state
  environment.foldl (fun state entry =>
    match splitAssignment entry with
    | (name, some value) =>
      if isName name then state.setBinding name { value := some value, isExported := true } else state
    | _ => state) state

/-- Gives a variable its first value, whatever the environment says. -/
def setInitial (name : String) (value : Octets) : Action Unit := modify fun state =>
  let old := (state.binding? name.toList).getD {}
  state.setBinding name.toList { old with value := some value }

/-- The path of the current directory that the environment gives, if it is one. -/
def givenDirectory? : Action (Option Octets) := do
  match (← get).value? "PWD".toList with
  | some ('/' :: path) =>
    let given ← call (.status ('/' :: path) true)
    let current ← call (.status ['.'] true)
    match given, current with
    | .ok given, .ok current =>
      return if given.identity = current.identity then some ('/' :: path) else none
    | _, _ => return none
  | _ => return none

/-- Sets up the variables and what else a shell knows at its start. -/
def setUp (name : Octets) (environment : List Octets) : Action Unit := do
  importEnvironment environment
  let (process, parent) ← call .numbers
  let ignoredSignals ← call .ignored
  modify ({ · with name, process, parent, ignoredSignals })
  setInitial "IFS" [' ', '\t', '\n']
  setInitial "OPTIND" ['1']
  setInitial "PPID" (State.decimal parent)
  Builtin.setDirectory (← givenDirectory?) false

structure Invocation where
  /-- The script is the first argument. -/
  hasCommands : Bool := false
  arguments : List Octets

def readInvocation : Nat → Bool → List Octets → Action Invocation
  | 0, hasCommands, arguments => return { hasCommands, arguments }
  | fuel + 1, hasCommands, arguments =>
    match arguments with
    | ['-'] :: rest | ['-', '-'] :: rest => return { hasCommands, arguments := rest }
    | (sign :: letters) :: rest =>
      if sign = '-' || sign = '+' then do
        let options := letters.filter fun letter => letter != 'c' && letter != 'l'
        let rest ← Builtin.turnLetters (sign = '-') options rest
        readInvocation fuel (hasCommands || letters.contains 'c') rest
      else return { hasCommands, arguments }
    | arguments => return { hasCommands, arguments }

end Action

namespace Evaluation

open ShellCompletion.Shell.Action

def runInput (run : Evaluation) : Action Nat :=
  run.runScript 0 maxRounds { text := [], isWhole := false } 0

def invoke (run : Evaluation) (arguments : List Octets) : Action Nat := do
  let invocation ← readInvocation (arguments.length + 1) false arguments
  match invocation.hasCommands, invocation.arguments with
  | true, [] => failText "-c requires an argument"
  | true, commands :: rest =>
    modify fun state => { state with name := rest.headD state.name, arguments := rest.drop 1 }
    let readsMore := (← get).has 's'
    let status ← run.runText { exits := !readsMore } commands
    if readsMore then run.runInput else return status
  | false, arguments =>
    if arguments.isEmpty then Builtin.turn 's' true
    match (← get).has 's', arguments with
    | false, path :: rest => run.runFile path (modify ({ · with name := path, arguments := rest }))
    | _, arguments =>
      modify ({ · with arguments })
      run.runInput

end Evaluation

def program (arguments environment : List Octets) : Program :=
  let run := evaluate maxNesting
  let action : Action Unit := do
    Action.setUp (arguments.headD "sh".toList) environment
    Action.leave (run.runText {}) (← Action.attempt (run.invoke (arguments.drop 1)))
  action {} fun _ state => .exit state.status

end ShellCompletion.Shell
