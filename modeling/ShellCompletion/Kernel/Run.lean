import ShellCompletion.FileTree.World
import ShellCompletion.Kernel.Image
import ShellCompletion.Kernel.Service

/-!
# Running processes

The process whose clock is least makes the next call. A machine runs until the first process has ended
and nobody can write to its output any more, or until its time is over.
-/

namespace ShellCompletion.Kernel

open Text (Octets)

/-- The programs of the system, by their arguments and the environment. -/
abbrev Programs := SystemProgram → List Octets → List Octets → Program

namespace Machine

/-- How long it takes until a new process makes its first call. -/
def forkCost : Nat := 200

/-- How long it takes to become another program. -/
def execCost : Nat := 500

/-- Lets a process go on with the rest of its program. -/
def resume (machine : Machine) (process : Process) (program : Program) (cost : Nat) : Machine :=
  machine.modify process.number fun process =>
    { process with program, clock := process.clock + cost }

def fork (machine : Machine) (process : Process) (child : Unit → Program) (next : Nat → Program) :
    Machine :=
  let number := machine.nextProcess
  let machine := machine.resume process (next number) (forkCost / 2)
  let new := { process with
    number
    parent := process.number
    program := child ()
    clock := process.clock + forkCost
    pending := [] }
  { machine with processes := machine.processes ++ [new], nextProcess := number + 1 }

/-- Makes the process a program that is starting: what it caught is left to the standard. -/
def become (machine : Machine) (process : Process) (program : Program) : Machine :=
  let machine := machine.modify process.number fun process =>
    { process with
      program
      clock := process.clock + execCost
      descriptors := process.descriptors.filter (!·.hidden)
      caught := []
      pending := [] }
  machine.releaseAll (process.descriptors.filter (·.hidden)) process.clock

def step (programs : Programs) (machine : Machine) (process : Process) : Machine :=
  match process.program with
  | .exit status => machine.finish process (.exited (status % 256)) process.clock
  | .fork child next => machine.fork process child next
  | .exec path arguments environment next =>
    match image machine.tree process.directory path arguments Interpreter.maxDepth with
    | .ok (program, arguments) => machine.become process (programs program arguments environment)
    | .error errno => machine.resume process (next errno) callCost
  | .call call next =>
    match machine.serve process call with
    | .reply value machine cost => machine.resume process (next value) cost
    | .later waiting => machine.modify process.number ({ · with waiting := some waiting })
    | .signal signal => machine.finish process (.killed signal) process.clock

/-- A machine that has more processes at once is given up. -/
def maxProcesses : Nat := 4096

/-- Runs the processes until `isOver` or until no process can go on before `limit`. -/
def run (programs : Programs) (isOver : Machine → Bool) (limit : Nat) : Nat → Machine → Machine
  | 0, machine => machine
  | fuel + 1, machine =>
    if isOver machine || maxProcesses < machine.processes.length then machine
    else
      match machine.next? with
      | none => machine
      | some process =>
        if limit ≤ process.clock then machine
        else run programs isOver limit fuel (machine.step programs process)

/-- No run takes more steps. -/
def maxSteps : Nat := 1000000000

/-- The first process has ended, and its output cannot grow any more. -/
def isOver (first : Nat) (machine : Machine) : Bool :=
  (machine.process? first).isNone && !machine.isOpen .output

/-- A machine with one process, which reads nothing and writes to the output. -/
def ofProgram (world : World) (program : Program) : Machine :=
  let first : Process := {
    number := 4000
    parent := 3999
    program
    clock := 0
    descriptors := [⟨0, 0, false⟩, ⟨1, 1, false⟩, ⟨2, 2, false⟩]
    directory := world.directory }
  { tree := world.tree
    processes := [first]
    files := [
      (0, { stream := .device .null, reads := true }),
      (1, { stream := .output, writes := true }),
      (2, { stream := .device .null, writes := true })]
    nextProcess := 4001
    nextFile := 3 }

/-- What the first process wrote, if it and all that write to its output are done in time and it was
successful. -/
def result (machine : Machine) : Option Octets :=
  if isOver 4000 machine && machine.ended.any fun entry => entry == (4000, 3999, .exited 0) then
    some machine.output.reverse
  else none

end Machine

/-- The search path in octets. -/
def searchPath (world : World) : Octets :=
  match world.environment.lookup "PATH" with
  | some path => path.octets.map Text.ofByte
  | none => Text.encode Environment.standardSearchPath

/-- Where a program is looked for: at its path, or in the directories of the search path. -/
def candidates (world : World) (program : String) : List Octets :=
  let name := Text.encode program
  if '/' ∈ program.toList then [name]
  else ((searchPath world).splitOn ':').map fun directory =>
    if directory.isEmpty then name else directory ++ '/' :: name

/-- The first candidate that can be started. A file that is missing or must not be executed is passed
over; any other refusal is final. -/
def findImage (world : World) (arguments : List Octets) :
    List Octets → Except Errno (SystemProgram × List Octets)
  | [] => .error .noEntry
  | candidate :: rest =>
    match image world.tree world.directory candidate arguments Interpreter.maxDepth with
    | .ok found => .ok found
    | .error .noEntry | .error .notDirectory | .error .denied => findImage world arguments rest
    | .error errno => .error errno

/-- Starts a program and gives the machine when it is over. The limit is in milliseconds. -/
def Machine.start (programs : Programs) (world : World) (program : String) (arguments : List String)
    (environment : List (String × String)) (limit : Nat) : Option Machine :=
  let texts := program :: arguments ++ environment.map (·.2)
  if program.isEmpty || texts.any fun text => '\x00' ∈ text.toList then none
  else if '/' ∉ program.toList && FileTree.maxName < program.utf8ByteSize then none
  else
    match findImage world ((program :: arguments).map Text.encode) (candidates world program) with
    | .error _ => none
    | .ok (program, arguments) =>
      let bindings := environment.foldl
        (fun table (name, value) => table.insert name (OsText.ofText value)) world.environment
      let environment := bindings.map fun (name, value) =>
        Text.encode (name ++ "=") ++ value.octets.map Text.ofByte
      let machine := ofProgram world (programs program arguments environment)
      some (run programs (isOver 4000) (limit * 1000) maxSteps machine)

end ShellCompletion.Kernel
