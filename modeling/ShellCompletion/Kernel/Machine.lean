import ShellCompletion.Kernel.Program

/-!
# Machines

A machine runs processes over a file tree. Each process has a clock of its own, which says when it makes
its next call; what processes have open, and the pipes between them, they share.
-/

namespace ShellCompletion.Kernel

open Text (Octets)

/-- Where octets come from or go to. -/
inductive Stream where
  | file (place : Place)
  | directory (place : Place)
  | device (device : Device)
  | source (pipe : Nat)
  | sink (pipe : Nat)
  /-- What is gathered for whoever started the machine. -/
  | output
deriving DecidableEq, Repr

/-- An open file; it may be known under several descriptors of several processes. -/
structure OpenFile where
  stream : Stream
  reads : Bool := false
  writes : Bool := false
  appends : Bool := false
  position : Nat := 0
deriving DecidableEq, Repr

structure Descriptor where
  number : Nat
  file : Nat
  /-- Closed when the process becomes another program. -/
  hidden : Bool := false
deriving DecidableEq, Repr

/-- The octets on their way through a pipe. -/
structure Pipe where
  front : Octets := []
  /-- The latest first. -/
  back : Octets := []
  size : Nat := 0

namespace Pipe

/-- A writer waits while a pipe holds this much. -/
def capacity : Nat := 65536

def push (pipe : Pipe) (data : Octets) : Pipe :=
  { pipe with back := data.reverseAux pipe.back, size := pipe.size + data.length }

def pop (pipe : Pipe) (count : Nat) : Octets × Pipe :=
  let front := if pipe.front.isEmpty then pipe.back.reverse else pipe.front
  let back := if pipe.front.isEmpty then [] else pipe.back
  let taken := front.take count
  (taken, { front := front.drop count, back, size := pipe.size - taken.length })

end Pipe

/-- What a process waits for. -/
inductive Waiting where
  /-- Something to read from a pipe, or room to write to it. -/
  | pipe (pipe : Nat)
  | child
deriving DecidableEq, Repr

structure Process where
  number : Nat
  parent : Nat
  program : Program
  /-- In microseconds. -/
  clock : Nat
  /-- The process makes its call again when this has come about. -/
  waiting : Option Waiting := none
  isStopped : Bool := false
  descriptors : List Descriptor
  directory : Place
  mask : Nat := 18
  ignored : List Signal := []
  caught : List Signal := []
  /-- The caught signals that the process has not been told of. -/
  pending : List Signal := []

structure Machine where
  tree : FileTree
  processes : List Process := []
  /-- The processes whose ends nobody has asked for: their numbers, those of their parents and how they
  ended. -/
  ended : List (Nat × Nat × Ending) := []
  files : List (Nat × OpenFile) := []
  pipes : List (Nat × Pipe) := []
  nextProcess : Nat := 4000
  nextFile : Nat := 0
  nextPipe : Nat := 0
  /-- The latest octet first. -/
  output : Octets := []
  /-- When files were written to, the latest first. -/
  changes : List (Place × Nat) := []

namespace Process

def descriptor? (process : Process) (number : Nat) : Option Descriptor :=
  process.descriptors.find? (·.number == number)

/-- Descriptors have numbers below this. -/
def descriptorBound : Nat := 1024

/-- The first number from `least` on that is not in use. -/
def vacantFrom (used : List Nat) (least : Nat) : Nat → Nat
  | 0 => least
  | fuel + 1 => if least ∈ used then vacantFrom used (least + 1) fuel else least

def vacant (process : Process) (least : Nat) : Nat :=
  vacantFrom (process.descriptors.map (·.number)) least process.descriptors.length

def withoutDescriptor (process : Process) (number : Nat) : Process :=
  { process with descriptors := process.descriptors.filter (·.number != number) }

/-- Notes that a signal has come which a process catches. -/
def note (process : Process) (signal : Signal) : Process :=
  if process.caught.contains signal && !process.pending.contains signal then
    { process with pending := process.pending ++ [signal] }
  else process

/-- How long it takes until a process learns of the end of another one. -/
def reapCost : Nat := 50

/-- Has a process that waits make its call again. -/
def wake (process : Process) (now : Nat) : Process :=
  if process.waiting.isSome then { process with waiting := none, clock := max process.clock now }
  else process

/-- What the end of a process means to another one: its children are left without a parent, and its own
parent is told of it. -/
def survive (process ended : Process) (now : Nat) : Process :=
  if process.parent = ended.number then { process with parent := 1 }
  else if process.number = ended.parent then
    let process := process.note Signal.child
    if process.waiting = some .child then process.wake (now + reapCost) else process
  else process

end Process

namespace Machine

def process? (machine : Machine) (number : Nat) : Option Process :=
  machine.processes.find? (·.number == number)

def modify (machine : Machine) (number : Nat) (change : Process → Process) : Machine :=
  { machine with processes := machine.processes.map fun process =>
      if process.number = number then change process else process }

def file? (machine : Machine) (number : Nat) : Option OpenFile := machine.files.lookup number

def openFile? (machine : Machine) (process : Process) (number : Nat) : Option (Nat × OpenFile) := do
  let descriptor ← process.descriptor? number
  return (descriptor.file, ← machine.file? descriptor.file)

def setFile (machine : Machine) (number : Nat) (file : OpenFile) : Machine :=
  { machine with files := machine.files.map fun entry =>
      if entry.1 = number then (number, file) else entry }

def setPipe (machine : Machine) (number : Nat) (pipe : Pipe) : Machine :=
  { machine with pipes := machine.pipes.map fun entry =>
      if entry.1 = number then (number, pipe) else entry }

def isOpen (machine : Machine) (stream : Stream) : Bool :=
  machine.files.any fun (_, file) => file.stream == stream

def pipeOf? : Stream → Option Nat
  | .source pipe | .sink pipe => some pipe
  | _ => none

def wakeAt (machine : Machine) (pipe now : Nat) : Machine :=
  { machine with processes := machine.processes.map fun process =>
      if process.waiting = some (.pipe pipe) then process.wake now else process }

/-- Forgets an open file if no process has it open any more. If it was an end of a pipe, those at the other
end learn of it, and the pipe is forgotten with the last of its ends. -/
def release (machine : Machine) (file now : Nat) : Machine :=
  if machine.processes.any fun process => process.descriptors.any (·.file == file) then machine
  else
    let pipe? := (machine.file? file).bind fun file => pipeOf? file.stream
    let machine := { machine with files := machine.files.filter (·.1 != file) }
    match pipe? with
    | none => machine
    | some pipe =>
      if machine.isOpen (.source pipe) || machine.isOpen (.sink pipe) then machine.wakeAt pipe now
      else { machine with pipes := machine.pipes.filter (·.1 != pipe) }

/-- Forgets what the descriptors of a process were the last ones for. -/
def releaseAll (machine : Machine) (descriptors : List Descriptor) (now : Nat) : Machine :=
  descriptors.foldl (fun machine descriptor => machine.release descriptor.file now) machine

def finish (machine : Machine) (process : Process) (ending : Ending) (now : Nat) : Machine :=
  let rest := machine.processes.filter (·.number != process.number)
  let ended := machine.ended.filter fun (_, parent, _) => parent != process.number
  let machine := { machine with
    processes := rest.map (Process.survive · process now)
    ended := ended ++ [(process.number, process.parent, ending)] }
  machine.releaseAll process.descriptors now

/-- Brings a signal to a process at the time `now`. -/
def deliver (machine : Machine) (signal : Signal) (now : Nat) (process : Process) : Machine :=
  let change (f : Process → Process) : Machine :=
    machine.modify process.number fun process => (f process).wake now
  if signal = Signal.resume then
    change fun process =>
      { process.note signal with isStopped := false, clock := max process.clock now }
  else if process.ignored.contains signal then machine
  else if process.caught.contains signal then change (·.note signal)
  else
    match Signal.effect signal with
    | .ends => machine.finish process (.killed signal) now
    | .stops => change fun process => { process with isStopped := true }
    | .resumes | .none => machine

/-- The process that makes the next call: the one whose clock is least. -/
def next? (machine : Machine) : Option Process :=
  machine.processes.foldl (fun best process =>
    if process.waiting.isSome || process.isStopped then best
    else
      match best with
      | some other => if process.clock < other.clock then some process else best
      | none => some process) none

end Machine

end ShellCompletion.Kernel
