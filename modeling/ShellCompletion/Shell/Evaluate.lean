import ShellCompletion.Shell.Simple

/-!
# Carrying out commands

`evaluate` carries out a command of any kind and gives its status.
-/

namespace ShellCompletion.Shell

open Text (Octets)
open Kernel

namespace Evaluation

open ShellCompletion.Shell.Action

/-- What comes after a command: its status is noted, signals are seen to, and the shell ends where it is
to end. A failure that `checks` asks for ends it too if the script says so. -/
def settle (run : Evaluation) (flags : Flags) (checks : Bool) (status : Nat) : Action Nat := do
  setStatus status
  if checks then pollSignals
  runTraps run Signal.bound
  let state ← get
  if (checks && !flags.tested && status ≠ 0 && state.has 'e') || flags.exits then throw .finished
  return status

/-! ### Loops -/

/-- How a part of a loop has come to its end. -/
inductive Turn where
  | done (status : Nat)
  | leave
  | again

/-- Carries out a part of a loop. -/
def turn (part : Action Nat) : Action Turn := do
  match ← attempt part with
  | .ok status => return .done status
  | .error (.leave loops) => if loops ≤ 1 then return .leave else throw (.leave (loops - 1))
  | .error (.again loops) => if loops ≤ 1 then return .again else throw (.again (loops - 1))
  | .error interrupt => throw interrupt

/-- Carries out a loop, of which there is one more meanwhile. -/
def inLoop (loop : Action Nat) : Action Nat := do
  let loops := (← get).loops
  modify ({ · with loops := loops + 1 })
  andThen loop (modify ({ · with loops }))

/-- Goes round as long as the test says so; `status` is that of the last round. -/
def runRounds (test body : Action Nat) (untilTrue : Bool) : Nat → Nat → Action Nat
  | 0, status => return status
  | fuel + 1, status => do
    match ← turn test with
    | .leave => return status
    | .again => runRounds test body untilTrue fuel status
    | .done found =>
      if (found = 0) = untilTrue then return status
      else
        match ← turn body with
        | .leave => return (← get).status
        | .again => runRounds test body untilTrue fuel (← get).status
        | .done status => runRounds test body untilTrue fuel status

/-- Carries out the body of a loop for each text. -/
def runEach (name : Octets) (body : Action Nat) : List Octets → Nat → Action Nat
  | [], status => return status
  | text :: rest, _ => do
    assign name (some text)
    match ← turn body with
    | .leave => return (← get).status
    | .again => runEach name body rest (← get).status
    | .done status => runEach name body rest status

/-! ### Choices -/

/-- One of the patterns fits the text. -/
def fitsAny (substitute : Command → Action Octets) (text : Octets) : List Word → Action Bool
  | [] => return false
  | word :: rest => do
    if (← pattern substitute word).covers text then return true
    else fitsAny substitute text rest

/-- The commands of the first case that fits the text. -/
def chosen (substitute : Command → Action Octets) (text : Octets) :
    List (List Word × Option Command) → Action (Option Command)
  | [] => return none
  | (words, command) :: rest => do
    if ← fitsAny substitute text words then return command else chosen substitute text rest

/-! ### Processes -/

/-- Notes that processes are running in the background. -/
def addJob (number : Nat) (processes : List Nat) : Action Unit := modify fun state =>
  { state with
    jobs := state.jobs ++ [{ number, processes := processes.map (·, none) }]
    lastBackground := processes.getLast? }

/-- Starts the commands of a pipeline; `source` is where the first of them reads from. -/
def startPipeline (run : Evaluation) (flags : Flags) (inBackground : Bool) :
    Option Nat → List Command → Action (List Nat)
  | _, [] => return []
  | source, command :: rest => do
    let pipe ← if rest.isEmpty then pure none else do pure (some (← call .pipe))
    let start : Action Unit := do
      if inBackground then detach source.isNone
      if let some (next, _) := pipe then
        let _ ← call (.close next)
      if let some source := source then moveTo source 0
      if let some (_, sink) := pipe then moveTo sink 1
    let process ← startCommand run flags start (some command)
    if let some source := source then
      let _ ← call (.close source)
    if let some (_, sink) := pipe then
      let _ ← call (.close sink)
    return process :: (← startPipeline run flags inBackground (pipe.map (·.1)) rest)

def runPipeline (run : Evaluation) (flags : Flags) (inBackground : Bool) (commands : List Command) :
    Action Nat := do
  let number ← claimJob
  let processes ← startPipeline run flags inBackground none commands
  if inBackground then
    addJob number processes
    return 0
  else await processes

/-- Carries out a command under redirections that stay. -/
def runRedirected (run : Evaluation) (flags : Flags) (openings : List (Nat × Opened))
    (command : Option Command) : Action Nat := do
  let kept := (← get).kept
  modify ({ · with kept := [] })
  forEach openings fun (number, opening) => redirect run.substitute number opening
  modify ({ · with kept })
  match command with
  | some command => run { flags with exits := true } command
  | none => throw .finished

def runSubshell (run : Evaluation) (flags : Flags) (line : Nat) (command : Option Command)
    (redirections : List Redirection) : Action Nat := do
  modify ({ · with line })
  let openings ← mapEach redirections (expandRedirection run.substitute)
  if flags.exits && !(← get).hasTraps then run.runRedirected flags openings command
  else
    let _ ← claimJob
    let process ← startProcess (run.runText {}) (pure ()) (run.runRedirected flags openings command)
    await [process]

def runInBackground (run : Evaluation) (line : Nat) (command : Command)
    (redirections : List Redirection) : Action Nat := do
  modify ({ · with line })
  let openings ← mapEach redirections (expandRedirection run.substitute)
  let number ← claimJob
  let process ←
    startProcess (run.runText {}) (detach true) (run.runRedirected {} openings (some command))
  addJob number [process]
  return 0

/-! ### Commands -/

/-- Carries out a command by means of the evaluation of those within it. -/
def step (run : Evaluation) (flags : Flags) (command : Command) : Action Nat := do
  let inner : Flags := { tested := flags.tested }
  let settle := settle run flags
  match command with
  | .simple line assignments words redirections =>
    settle true (← run.runSimple flags line assignments words redirections)
  | .pipeline inBackground commands => settle true (← run.runPipeline flags inBackground commands)
  | .subshell line command redirections =>
    settle true (← run.runSubshell flags line command redirections)
  | .background line command redirections =>
    settle true (← run.runInBackground line command redirections)
  | .redirected line command redirections =>
    modify ({ · with line })
    match ← redirected run.substitute redirections false (run inner command) with
    | some status => settle false status
    | none => settle true 2
  | .negation command =>
    let status ← run { tested := true } command
    settle false (if status = 0 then 1 else 0)
  | .both first second =>
    let status ← run { tested := true } first
    if status = 0 then run flags second else settle false status
  | .either first second =>
    let status ← run { tested := true } first
    if status = 0 then settle false 0 else run flags second
  | .sequence first second =>
    let _ ← run inner first
    run flags second
  | .conditional test yes no =>
    if (← run { tested := true } test) = 0 then run flags yes
    else
      match no with
      | some no => run flags no
      | none => settle false 0
  | .loop untilTrue test body =>
    settle false
      (← inLoop (runRounds (run { tested := true } test) (run inner body) untilTrue maxRounds 0))
  | .each line name words body =>
    modify ({ · with line })
    let texts ← mapEach words (fields run.substitute)
    settle false (← inLoop (runEach name (run inner body) texts.flatten 0))
  | .choice line word cases =>
    modify ({ · with line })
    let text ← text run.substitute word
    match ← chosen run.substitute text cases with
    | some command => run flags command
    | none => settle false 0
  | .function name body =>
    modify fun state =>
      { state with functions := (name, body) :: state.functions.filter (·.1 != name) }
    settle false 0

end Evaluation

/-- Commands and what they carry out may nest this deep. -/
def maxNesting : Nat := 20000

/-- Carries out a command. One that nests deeper than `depth` ends the process. -/
def evaluate : (depth : Nat) → Evaluation
  | 0, _, _ => Action.crash Signal.memoryFault
  | depth + 1, flags, command => do
    let run := evaluate depth
    if (← get).has 'n' then
      if flags.exits then throw .finished else return 0
    else run.step flags command

end ShellCompletion.Shell
