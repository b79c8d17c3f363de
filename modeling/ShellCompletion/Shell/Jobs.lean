import ShellCompletion.Shell.Redirect

/-!
# Jobs

A job is what a shell has started in processes of their own. The shell waits for a job to end, or leaves it
in the background and keeps how it ended until it is asked for.
-/

namespace ShellCompletion.Shell

open Text (Octets)
open Kernel

/-- How often something may be done again. -/
def maxRounds : Nat := 1000000000

namespace Action

def statusOf : Ending → Nat
  | .exited status => status
  | .killed signal => 128 + signal

/-- Says that a signal has ended a process, if that is worth a word. -/
def reportEnd (ending : Ending) : Action Unit :=
  match ending with
  | .killed signal =>
    if signal = Signal.interrupt || signal = Signal.brokenPipe then pure ()
    else writeError (Text.encode (Signal.description signal ++ "\n"))
  | .exited _ => pure ()

/-- Notes how a process of a job in the background has ended. -/
def noteEnd (process : Nat) (ending : Ending) : Action Unit :=
  modify fun state => { state with jobs := state.jobs.map (·.note process ending) }

/-- Waits until all processes have ended, and gives how the last of them did. -/
def awaitAll : Nat → List (Nat × Option Ending) → Action Nat
  | 0, _ => return 127
  | fuel + 1, processes => do
    if processes.all (·.2.isSome) then
      return ((processes.getLast?.bind (·.2)).map statusOf).getD 127
    else
      match ← call (.await .endless) with
      | .ok (some (process, ending)) =>
        if processes.any (·.1 == process) then
          reportEnd ending
          awaitAll fuel (processes.map fun entry =>
            if entry.1 == process then (process, some ending) else entry)
        else
          noteEnd process ending
          awaitAll fuel processes
      | _ => return 127

def await (processes : List Nat) : Action Nat :=
  awaitAll maxRounds (processes.map (·, none))

/-- The number of a new job. The place of one whose end is known is free. -/
def claimJob : Action Nat := modifyGet fun state =>
  let isFree (number : Nat) : Bool :=
    state.jobs.all fun job => job.number != number || (job.isDone && job.isKnown)
  let number := ((List.range (state.jobs.length + 1)).map (· + 1)).find? isFree |>.getD 1
  (number, { state with jobs := state.jobs.filter (·.number != number) })

/-! ### Signals -/

/-- Has a signal start commands, do nothing or have its usual effect. One that was ignored from the start
stays so. -/
def handleSignal (signal : Signal) (action : Option Octets) : Action Unit := do
  if (← get).ignoredSignals.contains signal then return
  let handling := match action with
    | none => Handling.standard
    | some [] => .ignored
    | some _ => .caught
  call (.handle signal handling)

def ignoreSignal (signal : Signal) : Action Unit := do
  call (.handle signal .ignored)
  modify fun state =>
    { state with ignoredSignals :=
        if state.ignoredSignals.contains signal then state.ignoredSignals
        else state.ignoredSignals ++ [signal] }

/-- Makes the shell one that has just been forked: it has no jobs and no commands for signals. -/
def enterSubshell : Action Unit := do
  let state ← get
  set { state with
    traps := state.traps.filter (·.2.isEmpty)
    jobs := []
    pending := []
    kept := [] }
  forEach state.traps fun (signal, action) =>
    if signal = 0 || action.isEmpty then pure () else handleSignal signal none

/-- Detaches a process in the background from the signals of the terminal and from the input. -/
def detach (closesInput : Bool) : Action Unit := do
  ignoreSignal Signal.interrupt
  ignoreSignal Signal.quit
  if closesInput then
    let _ ← call (.close 0)
    let _ ← call (.openFile "/dev/null".toList { reads := true })

/-! ### The end of a shell -/

/-- The status that the shell ends with when the script has asked for its end. -/
def settleStatus (interrupt : Interrupt) : Action Unit := modify fun state =>
  match interrupt, state.finalStatus with
  | .exit, some status => { state with status, finalStatus := none }
  | _, _ => { state with finalStatus := none }

/-- Carries out the commands for the end of the shell; `carryOut` runs a text as a script. -/
def leave (carryOut : Octets → Action Nat) (result : Except Interrupt Nat) : Action Unit := do
  match result with
  | .error interrupt => settleStatus interrupt
  | .ok _ => pure ()
  let state ← get
  match state.trap? 0 with
  | none => pure ()
  | some commands =>
    let status := state.status
    set { state with
      traps := state.traps.filter (·.1 != 0), finalStatus := some status, loops := 0 }
    match ← attempt (carryOut commands) with
    | .error .failure | .error .finished => pure ()
    | _ => modify fun state => { state with status := state.finalStatus.getD status }
  let _ ← flush

def startProcess (carryOut : Octets → Action Nat) (start : Action Unit) (body : Action Nat) :
    Action Nat :=
  fork do
    enterSubshell
    start
    leave carryOut (← attempt body)

end Action

end ShellCompletion.Shell
