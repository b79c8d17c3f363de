import ShellCompletion.Shell.Builtin.Basic

/-!
# Builtins for processes and signals
-/

namespace ShellCompletion.Shell.Builtin

open Text (Octets)
open Kernel ShellCompletion.Shell.Action

/-! ### Waiting -/

/-- Waits until a job has ended; false if a signal came before that. -/
def awaitJob (isAwaited : Job → Bool) (reports : Bool) : Nat → Action Bool
  | 0 => return true
  | fuel + 1 => do
    if (← get).jobs.all fun job => !isAwaited job || job.isDone then return true
    match ← call (.await .untilSignal) with
    | .ok (some (process, ending)) =>
      let awaited := (← get).jobs.any fun job => isAwaited job && job.processes.any (·.1 == process)
      if reports && awaited then reportEnd ending
      noteEnd process ending
      awaitJob isAwaited reports fuel
    | .error .interrupted =>
      pollSignals
      return false
    | _ => return true

def signalStatus : Action Nat := do
  return 128 + ((← get).pending.min?).getD 0

def markKnown (isKnown : Job → Bool) : Action Unit := modify fun state =>
  { state with jobs := state.jobs.map fun job => if isKnown job then { job with isKnown := true } else job }

/-- The job that a word with a percent sign names, or the one that was started last. -/
def jobOf (word : Octets) : Action Job := do
  let jobs := (← get).jobs
  let found := match word with
    | [] | ['%'] | ['%', '%'] | ['%', '+'] => jobs.getLast?
    | ['%', '-'] => jobs.dropLast.getLast?
    | '%' :: digits => (number? digits).bind fun number => jobs.find? (·.number == number)
    | _ => none
  match found with
  | some job => return job
  | none =>
    if [[], ['%'], ['%', '%'], ['%', '+']].contains word then failUsage "No current job"
    else if word = ['%', '-'] then failUsage "No previous job"
    else fail (Text.encode "No such job: " ++ word)

/-- Waits for the job of a word. Gives its status, or none if there is no such job. -/
def awaitWord (word : Octets) : Action (Except Nat (Option Nat)) := do
  let job? ← match word with
    | '%' :: _ => pure (some (← jobOf word))
    | _ =>
      let process ← number word
      pure ((← get).jobs.find? fun job => (job.processes.getLast?.map (·.1)) == some process)
  match job? with
  | none => return .ok none
  | some job =>
    if !(← awaitJob (·.number == job.number) true maxRounds) then return .error (← signalStatus)
    markKnown (·.number == job.number)
    let ended := ((← get).jobs.find? (·.number == job.number)).bind (·.ending?)
    return .ok (some ((ended.map statusOf).getD 127))

def awaitWords : List Octets → Nat → Action Nat
  | [], status => return status
  | word :: rest, status => do
    match ← awaitWord word with
    | .error status => return status
    | .ok found => awaitWords rest (found.getD status)

def wait (arguments : List Octets) : Action Nat := do
  match ← operands arguments with
  | [] =>
    if !(← awaitJob (fun _ => true) false maxRounds) then signalStatus
    else
      markKnown (·.isDone)
      return 0
  | words => awaitWords words 127

/-! ### Jobs -/

def jobState (job : Job) : Octets :=
  match job.ending? with
  | none => "Running".toList
  | some (.exited 0) => "Done".toList
  | some (.exited status) => Text.encode ("Done(" ++ toString status ++ ")")
  | some (.killed signal) => Text.encode (Signal.description signal)

def pollChildren : Nat → Action Unit
  | 0 => return
  | fuel + 1 => do
    match ← call (.await .none) with
    | .ok (some (process, ending)) =>
      noteEnd process ending
      pollChildren fuel
    | _ => return

/-- Shows a job. One that has ended is forgotten after that. -/
def showJob (withProcess onlyProcess : Bool) (job : Job) : Action Unit := do
  if onlyProcess then putLine (State.decimal job.leader)
  else
    let jobs := (← get).jobs
    let mark :=
      if some job.number = jobs.getLast?.map (·.number) then '+'
      else if some job.number = jobs.dropLast.getLast?.map (·.number) then '-'
      else ' '
    let start := ['['] ++ State.decimal job.number ++ "] ".toList ++ [mark, ' ']
    let start := if withProcess then start ++ State.decimal job.leader ++ [' '] else start
    let text := start ++ jobState job
    let pipes := (job.processes.drop 1).flatMap fun _ => " | ".toList
    putLine (text ++ List.replicate (max 1 (33 - text.length)) ' ' ++ pipes)
    if job.isDone then
      modify fun state => { state with jobs := state.jobs.filter (·.number != job.number) }

def showJobs (arguments : List Octets) : Action Nat := do
  let (found, words) ← optionsOf "lp" "" arguments
  let mode := found.getLast?.map (·.1)
  let shown := showJob (mode == some 'l') (mode == some 'p')
  if words.isEmpty then
    pollChildren maxRounds
    forEach (← get).jobs.reverse shown
  else forEach words fun word => do shown (← jobOf word)
  return 0

/-- Jobs cannot be brought to the foreground, nor can they be stopped and resumed. -/
def resumeJob (arguments : List Octets) : Action Nat := do
  let word := arguments.headD []
  let _ ← jobOf word
  let name := if word.isEmpty then "(null)".toList else word
  fail (Text.encode "job " ++ name ++ Text.encode " not created under job control")

/-! ### Signals -/

/-- The signal that a word names or numbers; zero is the end of the shell. -/
def signalOf? (word : Octets) : Option Signal :=
  if !word.isEmpty && word.all Char.isDigit then
    (number? word).filter (· < Signal.bound)
  else
    let upper := String.ofList (word.map Char.toUpper)
    if upper = "EXIT" then some 0
    else (List.range Signal.bound).find? fun signal => Signal.name? signal == some upper

def signalName (signal : Signal) : Octets :=
  Text.encode (if signal = 0 then "EXIT" else (Signal.name? signal).getD (toString signal))

def killUsage {α : Type} : Action α := failUsage
  ("Usage: kill [-s sigspec | -signum | -sigspec] [pid | job]... or\n" ++ "kill -l [exitstatus]")

def listSignals (arguments : List Octets) : Action Nat := do
  match arguments with
  | [] =>
    putText "0\n"
    forEach ((List.range (Signal.bound - 1)).map (· + 1)) fun signal => putLine (signalName signal)
    return 0
  | word :: _ =>
    let status ← number word
    let signal := if 128 < status then status - 128 else status
    if 0 < signal && signal < Signal.bound then
      putLine (signalName signal)
      return 0
    else fail (Text.encode "invalid signal number or exit status: " ++ word)

/-- The process that a word stands for; a negative number stands for a group. -/
def targetOf (word : Octets) : Action Int := do
  match word with
  | '%' :: _ =>
    return -((← jobOf word).leader : Int)
  | '-' :: digits => return -(← number digits : Nat)
  | word => return (← number word : Nat)

def sendSignal (signal : Signal) (words : List Octets) : Action Nat :=
  worst words fun word => do
    let target ← targetOf word
    match ← call (.signal target signal) with
    | .ok () => return 0
    | .error errno =>
      warn (Text.encode (errno.message ++ "\n"))
      return 1

def kill (arguments : List Octets) : Action Nat := do
  match arguments with
  | [] => killUsage
  | word :: rest =>
    let named := match word with
      | '-' :: name => (signalOf? name).filter fun signal => signal ≠ 0 || name == ['0']
      | _ => none
    match named with
    | some signal => if rest.isEmpty then killUsage else sendSignal signal rest
    | none =>
      let (found, words) ← optionsOf "l" "s" arguments
      if found.any (·.1 == 'l') then listSignals words
      else
        match found.lookup 's' with
        | none => if words.isEmpty then killUsage else sendSignal Signal.terminate words
        | some name =>
          match (signalOf? name).filter fun signal => signal ≠ 0 || name == ['0'] with
          | none => fail (Text.encode "invalid signal number or name: " ++ name)
          | some signal => if words.isEmpty then killUsage else sendSignal signal words

/-- Has a signal start commands from now on. -/
def setTrap (signal : Signal) (commands : Option Octets) : Action Unit := do
  modify fun state =>
    let traps := state.traps.filter (·.1 != signal)
    { state with traps := match commands with
      | some commands => traps ++ [(signal, commands)]
      | none => traps }
  if signal ≠ 0 then handleSignal signal commands

def setTraps (commands : Option Octets) : List Octets → Action Nat
  | [] => return 0
  | word :: rest => do
    match signalOf? word with
    | none =>
      writeError (Text.encode "trap: " ++ word ++ Text.encode ": bad trap\n")
      return 1
    | some signal =>
      setTrap signal commands
      setTraps commands rest

def trap (arguments : List Octets) : Action Nat := do
  match ← operands arguments with
  | [] =>
    let traps := (← get).traps.mergeSort fun a b => a.1 ≤ b.1
    forEach traps fun (signal, commands) =>
      putLine (Text.encode "trap -- " ++ quote commands ++ [' '] ++ signalName signal)
    return 0
  | [word] => setTraps none [word]
  | first :: rest =>
    let isSignal := first.all Char.isDigit && (signalOf? first).isSome
    if isSignal then setTraps none (first :: rest)
    else setTraps (if first = ['-'] then none else some first) rest

/-! ### Times and limits -/

def showTimes (_ : List Octets) : Action Nat := do
  putText "0m0.000000s 0m0.000000s\n0m0.000000s 0m0.000000s\n"
  return 0

/-- Limits are taken note of, but nothing is limited. -/
def limit (arguments : List Octets) : Action Nat := do
  let (_, operands) ← optionsOf "HSatfdscmlpnvwr" "" arguments
  match operands with
  | [] =>
    putText "unlimited\n"
    return 0
  | [value] =>
    if value = "unlimited".toList || value.all Char.isDigit then return 0 else failUsage "bad number"
  | _ => failUsage "too many arguments"

end ShellCompletion.Shell.Builtin
