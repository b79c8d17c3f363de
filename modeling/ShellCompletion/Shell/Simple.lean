import ShellCompletion.Shell.Builtin.Directory
import ShellCompletion.Shell.Builtin.Names
import ShellCompletion.Shell.Builtin.Output
import ShellCompletion.Shell.Builtin.Processes
import ShellCompletion.Shell.Builtin.Variables
import ShellCompletion.Shell.Evaluation

/-!
# Simple commands

The words of a simple command are expanded, and the first of them says what is carried out: a function, a
builtin or a program. The redirections and assignments of the command come before that.
-/

namespace ShellCompletion.Shell

open Text (Octets)
open Kernel

namespace Action

/-! ### Programs -/

def standardShell : Octets := "/bin/sh".toList

/-- Becomes the program of a file. A file that is no program is a script for the shell. -/
def execFile (path : Octets) (arguments environment : List Octets) : Action Errno := do
  match ← exec path arguments environment with
  | .notExecutable =>
    if path = standardShell then return .notExecutable
    else exec standardShell (standardShell :: path :: arguments.drop 1) environment
  | errno => return errno

/-- Becomes the first of the candidates that can be started. -/
def execFirst (arguments environment : List Octets) : List Octets → Errno → Action Errno
  | [], errno => return errno
  | candidate :: rest, errno => do
    let found ← execFile candidate arguments environment
    execFirst arguments environment rest
      (if found = .noEntry || found = .notDirectory then errno else found)

/-- Becomes a program; if that is not possible, says why and gives a status. -/
def becomeProgram (candidates arguments : List Octets) : Action Nat := do
  let errno ← execFirst arguments (← get).environment candidates .noEntry
  let status := match errno with
    | .noEntry | .notDirectory | .tooManyLinks | .nameTooLong => 127
    | _ => 126
  setStatus status
  warn (arguments.headD [] ++ Text.encode (": " ++ Builtin.execReason errno))
  return status

/-- Where the program of a command may be. -/
def programFiles (path? : Option Octets) (name : Octets) : Action (Except Errno (List Octets)) := do
  if name.contains '/' then return .ok [name]
  else
    let path ← match path? with
      | some path => pure path
      | none => Builtin.searchPath
    let found ← Builtin.findProgram (Builtin.candidates path name) .noEntry
    if found.isOk && path?.isNone then Builtin.noteFound name
    return found

def runProgram (exits : Bool) (path? : Option Octets) (arguments : List Octets) : Action Nat := do
  let name := arguments.headD []
  match ← programFiles path? name with
  | .error errno =>
    warn (name ++ Text.encode (": " ++ Builtin.execReason errno))
    return 127
  | .ok files =>
    if exits && !(← get).hasTraps then
      let _ ← becomeProgram files arguments
      throw .finished
    else
      let _ ← claimJob
      let process ← fork do
        let _ ← becomeProgram files arguments
      await [process]

/-! ### What a command is -/

inductive Meaning where
  | nothing
  | function (body : Command)
  | builtin (name : String)
  | program
deriving Inhabited

structure Resolved where
  meaning : Meaning
  /-- All fields of the command so far. -/
  fields : List Octets
  /-- The place of the name among them. -/
  start : Nat := 0
  /-- The words that are still to be expanded. -/
  rest : List Word := []
  /-- Where a program is looked for, if not in the usual search path. -/
  path? : Option Octets := none
  /-- The first builtin that was found is a special one. -/
  isSpecial : Option Bool := none
deriving Inhabited

/-- Expands words until there are more fields than `count`, if there are so many. -/
def expandTo (substitute : Command → Action Octets) (count : Nat) (fields : List Octets) :
    List Word → Action (List Octets × List Word)
  | [] => return (fields, [])
  | word :: rest => do
    if count < fields.length then return (fields, word :: rest)
    else expandTo substitute count (fields ++ (← Action.fields substitute word)) rest

/-- Goes past the options of `command`. Gives the place of the command after them, if one is to be carried
out, and where it is looked for. -/
def skipOptions (substitute : Command → Action Octets) :
    Nat → Nat → Option Octets → List Octets → List Word →
      Action (Option (Nat × Option Octets) × List Octets × List Word)
  | 0, _, _, fields, words => return (none, fields, words)
  | fuel + 1, start, path?, fields, words => do
    let (fields, words) ← expandTo substitute start fields words
    match fields[start]? with
    | none => return (none, fields, words)
    | some ['-', '-'] =>
      let (fields, words) ← expandTo substitute (start + 1) fields words
      let found := if start + 1 < fields.length then some (start + 1, path?) else none
      return (found, fields, words)
    | some ('-' :: letter :: letters) =>
      if (letter :: letters).all (· == 'p') then
        skipOptions substitute fuel (start + 1) (some Builtin.standardPath) fields words
      else return (none, fields, words)
    | some _ => return (some (start, path?), fields, words)

/-- Finds out what the command at `start` is. -/
def resolveFrom (substitute : Command → Action Octets) :
    Nat → (findsFunctions : Bool) → Resolved → Action Resolved
  | 0, _, resolved => return resolved
  | fuel + 1, findsFunctions, resolved => do
    let name := resolved.fields[resolved.start]?.getD []
    let state ← get
    match if findsFunctions then state.function? name else none with
    | some body => return { resolved with meaning := .function body }
    | none =>
      let text := String.ofList name
      match Builtin.known.lookup text with
      | none => return { resolved with meaning := .program }
      | some isSpecial =>
        let resolved := { resolved with
          meaning := .builtin text
          isSpecial := some (resolved.isSpecial.getD isSpecial) }
        if text ≠ "command" then return resolved
        else
          match ← skipOptions substitute maxRounds (resolved.start + 1) resolved.path?
              resolved.fields resolved.rest with
          | (none, fields, rest) => return { resolved with fields, rest }
          | (some (start, path?), fields, rest) =>
            resolveFrom substitute fuel false { resolved with fields, rest, start, path? }

/-- Builtins whose arguments may be assignments. -/
def takesAssignments (name : String) : Bool := name ∈ ["alias", "export", "local", "readonly"]

def argumentFields (substitute : Command → Action Octets) (meaning : Meaning) (word : Word) :
    Action (List Octets) := do
  match meaning with
  | .builtin name =>
    if takesAssignments name && Word.isAssignment word then
      return [← assignmentText substitute word]
    else fields substitute word
  | _ => fields substitute word

/-- Expands the words of a command and finds out what it is. -/
def resolve (substitute : Command → Action Octets) (words : List Word) : Action Resolved := do
  let (fields, rest) ← expandTo substitute 0 [] words
  if fields.isEmpty then return { meaning := .nothing, fields := [] }
  else
    let resolved ← resolveFrom substitute maxRounds true { meaning := .program, fields, rest }
    let more ← mapEach resolved.rest (argumentFields substitute resolved.meaning)
    return { resolved with fields := resolved.fields ++ more.flatten, rest := [] }

/-- Shows a command that is about to be carried out, where messages went before its own redirections. -/
def trace (isRedirected : Bool) (texts : List Octets) : Action Unit := do
  let state ← get
  let line := (state.value? "PS4".toList).getD [] ++ [' '].intercalate texts ++ ['\n']
  let kept := state.kept.head?.bind (·.lookup 2)
  match if isRedirected then kept else none with
  | some (some copy) =>
    let _ ← call (.write copy line)
  | some none => pure ()
  | none => writeError line

/-- Carries out assignments; gives them as they are expanded. -/
def assignAll (substitute : Command → Action Octets) (isLocal exported : Bool) (words : List Word) :
    Action (List Octets) :=
  mapEach words fun word => do
    let text ← assignmentText substitute word
    let (name, value) := splitAssignment text
    if isLocal then makeLocal name value true else assign name value exported
    return text

end Action

namespace Evaluation

open ShellCompletion.Shell.Action

/-! ### Builtins that carry out commands -/

/-- Ends loops; `interrupt` says what becomes of the outermost of them. -/
def endLoops (interrupt : Nat → Interrupt) (arguments : List Octets) : Action Nat := do
  let count ← match arguments with
    | [] => pure 1
    | word :: _ =>
      let count ← number word
      if count = 0 then illegalNumber word else pure count
  let loops := (← get).loops
  if loops = 0 then return 0
  else
    setStatus 0
    throw (interrupt (min count loops))

def returnWith (arguments : List Octets) : Action Nat := do
  match arguments with
  | [] => throw (.returned false)
  | word :: _ =>
    setStatus (← number word)
    throw (.returned true)

def exitWith (arguments : List Octets) : Action Nat := do
  match arguments with
  | [] => throw .exit
  | word :: _ =>
    let status ← number word
    modify ({ · with finalStatus := some status })
    throw .exit

def replaceShell (arguments : List Octets) : Action Nat := do
  match arguments with
  | [] => return 0
  | name :: _ =>
    let path ← Builtin.searchPath
    let _ ← becomeProgram (if name.contains '/' then [name] else Builtin.candidates path name) arguments
    throw .finished

/-- The first of the candidates that is a file. -/
def scriptFile? : List Octets → Action (Option Octets)
  | [] => return none
  | candidate :: rest => do
    match ← call (.status candidate true) with
    | .ok status => if status.kind = .regular then return some candidate else scriptFile? rest
    | .error _ => scriptFile? rest

/-- Carries out the script of a file in this shell. -/
def source (run : Evaluation) (arguments : List Octets) : Action Nat := do
  match ← Builtin.operands arguments with
  | [] => return 0
  | name :: _ =>
    let path ←
      if name.contains '/' then pure name
      else
        match ← scriptFile? (Builtin.candidates (← Builtin.searchPath) name) with
        | some path => pure path
        | none => fail (name ++ Text.encode ": not found")
    let result ← attempt (run.runFile path (modify ({ · with builtin := some path })))
    match result with
    | .error (.returned _) => return (← get).status
    | result => resume result

def builtinAction (run : Evaluation) (flags : Flags) (name : String) (arguments : List Octets) :
    Action Nat :=
  match name with
  | "." => run.source arguments
  | ":" | "true" => pure 0
  | "[" => Builtin.testBracketed arguments
  | "alias" => Builtin.defineAliases arguments
  | "bg" | "fg" => Builtin.resumeJob arguments
  | "break" => endLoops .leave arguments
  | "cd" | "chdir" => Builtin.changeDirectory arguments
  | "command" => Builtin.describeCommand arguments
  | "continue" => endLoops .again arguments
  | "echo" => Builtin.echo arguments
  | "eval" =>
    if arguments.isEmpty then pure 0
    else run.runText { tested := flags.tested } ([' '].intercalate arguments)
  | "exec" => replaceShell arguments
  | "exit" => exitWith arguments
  | "export" => Builtin.exportVariables arguments
  | "false" => pure 1
  | "getopts" => Builtin.getOptions arguments
  | "hash" => Builtin.hashNames arguments
  | "jobs" => Builtin.showJobs arguments
  | "kill" => Builtin.kill arguments
  | "local" => Builtin.makeLocals arguments
  | "printf" => Builtin.printFormat arguments
  | "pwd" => Builtin.showDirectory arguments
  | "read" => Builtin.readVariables arguments
  | "readonly" => Builtin.makeReadOnly arguments
  | "return" => returnWith arguments
  | "set" => Builtin.setOptions arguments
  | "shift" => Builtin.shift arguments
  | "test" => Builtin.testCondition arguments
  | "times" => Builtin.showTimes arguments
  | "trap" => Builtin.trap arguments
  | "type" => Builtin.typeNames arguments
  | "ulimit" => Builtin.limit arguments
  | "umask" => Builtin.changeMask arguments
  | "unalias" => Builtin.removeAliases arguments
  | "unset" => Builtin.unsetNames arguments
  | "wait" => Builtin.wait arguments
  | _ => pure 127

/-- Carries out a builtin under its name and hands on what it writes. An error in it ends the script if the
builtin is special. -/
def runBuiltin (run : Evaluation) (flags : Flags) (isSpecial : Bool) (name : String)
    (arguments : List Octets) : Action Nat := do
  let outer := (← get).builtin
  let title := Text.encode name
  modify ({ · with builtin := some title })
  let result ← attempt (run.builtinAction flags name arguments)
  let isWritten ← flush
  match result with
  | .ok status =>
    if !isWritten then warn (title ++ Text.encode ": I/O error")
    setStatus (if isWritten then status else status ||| 1)
  | .error _ => pure ()
  modify ({ · with builtin := outer })
  match result with
  | .error .failure => if isSpecial then throw .failure else return (← get).status
  | result =>
    let _ ← resume result
    return (← get).status

/-- Functions may call each other this deep. -/
def maxFunctionDepth : Nat := 1000

def callFunction (run : Evaluation) (flags : Flags) (body : Command) (arguments : List Octets) :
    Action Nat := do
  let outer ← get
  if maxFunctionDepth ≤ outer.functionDepth then
    failText ("Maximum function recursion depth (" ++ toString maxFunctionDepth ++ ") reached")
  set { outer with
    arguments
    optionIndex := 1
    optionOffset := none
    loops := 0
    functionDepth := outer.functionDepth + 1 }
  let result ← attempt (run { tested := flags.tested } body)
  modify ({ · with
    arguments := outer.arguments
    optionIndex := outer.optionIndex
    optionOffset := outer.optionOffset
    loops := outer.loops
    functionDepth := outer.functionDepth })
  match result with
  | .ok _ | .error (.returned _) => return (← get).status
  | .error interrupt => throw interrupt

/-! ### Carrying out -/

def carryOut (run : Evaluation) (flags : Flags) (resolved : Resolved) : Action Nat := do
  let arguments := resolved.fields.drop resolved.start
  match resolved.meaning with
  | .nothing => return (← get).substitutionStatus
  | .function body => run.callFunction flags body (arguments.drop 1)
  | .builtin name =>
    run.runBuiltin flags (resolved.isSpecial = some true) name (arguments.drop 1)
  | .program => runProgram flags.exits resolved.path? arguments

def runSimple (run : Evaluation) (flags : Flags) (line : Nat) (assignments words : List Word)
    (redirections : List Redirection) : Action Nat := do
  modify ({ · with line, substitutionStatus := 0 })
  let substitute := run.substitute
  let resolved ← resolve substitute words
  let isExec := match resolved.meaning with
    | .builtin name => name = "exec"
    | _ => false
  let hasName := !resolved.fields.isEmpty
  let isLocal := hasName && resolved.isSpecial ≠ some true
  let exported := isExec && 1 < (resolved.fields.drop resolved.start).length
  let body : Action Nat := do
    let texts ← assignAll substitute isLocal exported assignments
    if (← get).has 'x' then trace (!redirections.isEmpty) (texts ++ resolved.fields)
    run.carryOut flags resolved
  let action := redirected substitute redirections isExec body
  match ← (if isLocal then withLocals action else action) with
  | some status => return status
  | none =>
    setStatus 2
    if resolved.isSpecial = some true then throw .failure else return 2

end Evaluation

end ShellCompletion.Shell
