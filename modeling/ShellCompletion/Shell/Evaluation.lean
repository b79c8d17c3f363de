import ShellCompletion.Shell.Jobs

/-!
# Carrying out texts

A text is read command by command, and each one is carried out before the next one is read. How a command
is carried out is left to an `Evaluation`.
-/

namespace ShellCompletion.Shell

open Text (Octets)
open Kernel

/-- What is known of the place in which a command stands. -/
structure Flags where
  /-- The shell ends after the command. -/
  exits : Bool := false
  /-- The status is asked for, so that a failure does not end the shell. -/
  tested : Bool := false

/-- Carries out a command and gives its status. -/
abbrev Evaluation := Flags → Command → Action Nat

namespace Action

def setStatus (status : Nat) : Action Unit := modify ({ · with status })

/-- The next command of a text; nothing if there must be more text first. -/
def nextCommand (reading : Reading) : Action (Option Parsed) := do
  let state ← get
  let reading := { reading with
    aliases := state.aliases, documents := [], nextDocument := state.nextDocument }
  match reading.parse with
  | .ok (.command command rest) =>
    set { state with
      documents := rest.documents ++ state.documents, nextDocument := rest.nextDocument }
    return some (.command command rest)
  | .ok .endOfInput => return some .endOfInput
  | .error .needsMore => return none
  | .error (.malformed line message) =>
    set { state with line }
    failText ("Syntax error: " ++ message)
  | .error .tooDeep => failText "Syntax error: too deep"

end Action

namespace Evaluation

open ShellCompletion.Shell.Action

/-- Carries out the commands that are left to read; `status` is that of the last one. -/
def runReading (run : Evaluation) (flags : Flags) : Nat → Reading → Nat → Action Nat
  | 0, _, status => return status
  | fuel + 1, reading, status => do
    match ← nextCommand reading with
    | some (.command command rest) =>
      let isLast := rest.isPutBack && rest.token = .endOfFile
      let status ← match command with
        | some command => run { flags with exits := flags.exits && isLast } command
        | none => pure status
      runReading run flags fuel rest status
    | _ => return status

/-- Carries out a text. -/
def runText (run : Evaluation) (flags : Flags) (text : Octets) : Action Nat := do
  pollSignals
  runReading run flags (text.length + 1) { text, isWhole := true } 0

/-- So much of a script is read at a time. -/
def scriptWindow : Nat := 8191

/-- Carries out a script that comes from a descriptor. -/
def runScript (run : Evaluation) (source : Nat) : Nat → Reading → Nat → Action Nat
  | 0, _, status => return status
  | fuel + 1, reading, status => do
    match ← nextCommand reading with
    | some .endOfInput => return status
    | some (.command none rest) => runScript run source fuel rest status
    | some (.command (some command) rest) => runScript run source fuel rest (← run {} command)
    | none =>
      match ← call (.read source scriptWindow) with
      | .error .interrupted =>
        pollSignals
        runScript run source fuel reading status
      | .ok (c :: text) =>
        let text := reading.text ++ (c :: text).filter (· != '\x00')
        runScript run source fuel { reading with text } status
      | _ => runScript run source fuel { reading with isWhole := true } status

/-- Carries out the script of a file, after `start` when it is open. -/
def runFile (run : Evaluation) (path : Octets) (start : Action Unit) : Action Nat := do
  let source ← openFile .input path
  let source ← match ← call (.duplicate source keptFrom true) with
    | .ok copy =>
      let _ ← call (.close source)
      pure copy
    | .error _ => pure source
  start
  andThen (runScript run source maxRounds { text := [], isWhole := false } 0) do
    let _ ← call (.close source)

/-- Carries out the commands for the signals that have come. They leave the status as it was, unless they
return from a function with one. -/
def runTraps (run : Evaluation) : Nat → Action Unit
  | 0 => return
  | fuel + 1 => do
    let state ← get
    match state.pending.min? with
    | none => return
    | some signal =>
      set { state with pending := state.pending.filter (· != signal) }
      match state.trap? signal with
      | none => runTraps run fuel
      | some commands =>
        let status := state.finalStatus.getD state.status
        modify ({ · with finalStatus := some status })
        let result ← attempt (run.runText {} commands)
        match result with
        | .ok _ | .error (.leave _) | .error (.again _) | .error (.returned false) =>
          modify ({ · with status, finalStatus := state.finalStatus })
        | .error (.returned true) => modify ({ · with finalStatus := state.finalStatus })
        | .error _ => pure ()
        let _ ← resume result
        runTraps run fuel

/-- So much is read at a time where all is wanted. -/
def readWindow : Nat := 65536

/-- All that can be read. -/
def readAll (source : Nat) : Nat → Octets → Action Octets
  | 0, text => return text.reverse
  | fuel + 1, text => do
    match ← call (.read source readWindow) with
    | .ok [] => return text.reverse
    | .ok more => readAll source fuel (more.reverseAux text)
    | .error .interrupted => do
      pollSignals
      readAll source fuel text
    | .error _ => return text.reverse

/-- Moves a descriptor to the number of a standard one. -/
def moveTo (source target : Nat) : Action Unit := do
  if source ≠ target then
    let _ ← call (.duplicateTo source target)
    let _ ← call (.close source)

/-- Starts a process for a command, which `start` prepares. -/
def startCommand (run : Evaluation) (flags : Flags) (start : Action Unit) (command : Option Command) :
    Action Nat :=
  startProcess (run.runText {}) start do
    match command with
    | some command => run { flags with exits := true } command
    | none => return (← get).status

def substitute (run : Evaluation) (command : Command) : Action Octets := do
  let _ ← claimJob
  let (source, sink) ← call .pipe
  let start : Action Unit := do
    let _ ← call (.close source)
    moveTo sink 1
  let process ← startCommand run {} start (some command)
  let _ ← call (.close sink)
  let text ← readAll source maxRounds []
  let _ ← call (.close source)
  let status ← await [process]
  modify ({ · with substitutionStatus := status })
  return text

end Evaluation

end ShellCompletion.Shell
