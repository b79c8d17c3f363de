import ShellCompletion.Kernel.Program
import ShellCompletion.Shell.Parser

/-!
# The state of a shell

The state holds the variables, functions and options of one process that carries out a script.
-/

namespace ShellCompletion.Shell

open Text (Octets)
open Kernel

structure Binding where
  /-- A variable without a value may still be exported. -/
  value : Option Octets := none
  isExported : Bool := false
  isReadOnly : Bool := false

/-- What a variable or the options get back at the end of a command. -/
inductive Saved where
  | binding (name : Octets) (was : Option Binding)
  | options (letters : List Char)

/-- Commands in the background. -/
structure Job where
  number : Nat
  processes : List (Nat × Option Ending)
  /-- Its end has been asked for. -/
  isKnown : Bool := false

namespace Job

def isDone (job : Job) : Bool := job.processes.all (·.2.isSome)

/-- How the last of its processes has ended. -/
def ending? (job : Job) : Option Ending := job.processes.getLast?.bind (·.2)

def leader (job : Job) : Nat := (job.processes.head?.map (·.1)).getD 0

def note (job : Job) (process : Nat) (ending : Ending) : Job :=
  { job with processes := job.processes.map fun entry =>
      if entry.1 = process then (process, some ending) else entry }

end Job

structure State where
  bindings : List (Octets × Binding) := []
  functions : List (Octets × Command) := []
  aliases : List (Octets × Octets) := []
  /-- The letters of the options that are on. -/
  options : List Char := []
  name : Octets := "sh".toList
  arguments : List Octets := []
  /-- The argument that `getopts` looks at next, counted from one. -/
  optionIndex : Nat := 1
  /-- The letters of that argument that have been looked at. -/
  optionOffset : Option Nat := none
  status : Nat := 0
  /-- The status of the last substitution of the command that is being expanded. -/
  substitutionStatus : Nat := 0
  line : Nat := 0
  /-- How many loops and functions are running within each other. -/
  loops : Nat := 0
  functionDepth : Nat := 0
  /-- The commands that signals start; number zero is the end of the shell. -/
  traps : List (Nat × Octets) := []
  /-- The signals that were ignored when the shell was started. -/
  ignoredSignals : List Signal := []
  /-- Signals that have come and have not been seen to. -/
  pending : List Signal := []
  jobs : List Job := []
  lastBackground : Option Nat := none
  process : Nat := 0
  parent : Nat := 0
  directory : Octets := []
  physical : Octets := []
  builtin : Option Octets := none
  /-- The variables that are to be restored, for each command that does so. -/
  locals : List (List Saved) := []
  documents : List (Nat × Word) := []
  nextDocument : Nat := 0
  nextArea : Nat := 0
  /-- What was open under the numbers that are redirected, for each command, the innermost first. -/
  kept : List (List (Nat × Option Nat)) := []
  /-- What a builtin has written, the latest first. -/
  output : Octets := []
  /-- The status that the shell ends with if it ends now. -/
  finalStatus : Option Nat := none
  /-- The commands that have been found in the search path. -/
  found : List Octets := []

namespace State

def binding? (state : State) (name : Octets) : Option Binding := state.bindings.lookup name

def has (state : State) (letter : Char) : Bool := state.options.contains letter

def setBinding (state : State) (name : Octets) (binding : Binding) : State :=
  { state with bindings :=
      if state.bindings.any (·.1 == name) then
        state.bindings.map fun entry => if entry.1 == name then (name, binding) else entry
      else (name, binding) :: state.bindings }

def decimal (n : Int) : Octets := (toString n).toList

def value? (state : State) (name : Octets) : Option Octets := (state.binding? name).bind (·.value)

/-- What separates fields. -/
def separators (state : State) : Octets :=
  (state.value? "IFS".toList).getD [' ', '\t', '\n']

def environment (state : State) : List Octets :=
  state.bindings.filterMap fun (name, binding) =>
    if binding.isExported then binding.value.map fun value => name ++ '=' :: value else none

def function? (state : State) (name : Octets) : Option Command := state.functions.lookup name

def trap? (state : State) (signal : Nat) : Option Octets := state.traps.lookup signal

def hasTraps (state : State) : Bool := state.traps.any (!·.2.isEmpty)

end State

end ShellCompletion.Shell
