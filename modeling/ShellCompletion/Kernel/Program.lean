import ShellCompletion.Kernel.Errno
import ShellCompletion.Kernel.Signal
import ShellCompletion.Text.Octets

/-!
# Programs

A program is what is left to do of a process: it ends, or it asks the system for something and goes on
according to the reply. Between two calls it does nothing that others could see.
-/

namespace ShellCompletion.Kernel

open Text (Octets)

structure OpenMode where
  reads : Bool := false
  writes : Bool := false
  creates : Bool := false
  /-- The file must not be there yet. -/
  exclusive : Bool := false
  truncates : Bool := false
  appends : Bool := false
deriving DecidableEq, Repr

inductive FileKind where
  | regular
  | directory
  | link
  | pipe
  | character
deriving DecidableEq, Repr

/-- What tells two files apart. -/
inductive Identity where
  | place (place : Place)
  | pipe (number : Nat)
deriving DecidableEq, Repr

structure FileStatus where
  kind : FileKind
  identity : Identity
  size : Nat := 0
  executable : Bool := false
  /-- When the file was last written to. -/
  modified : Nat := 0
deriving DecidableEq, Repr

inductive Ending where
  | exited (status : Nat)
  | killed (signal : Signal)
deriving DecidableEq, Repr

/-- Whether a process waits for the end of another one. -/
inductive Patience where
  | none
  /-- Until a signal comes that the process catches. -/
  | untilSignal
  | endless
deriving DecidableEq, Repr

inductive Handling where
  | standard
  | ignored
  | caught
deriving DecidableEq, Repr

inductive Call where
  /-- Spends the time that a command takes, and asks for the caught signals. -/
  | tick
  | sleep (microseconds : Nat)
  | read (descriptor count : Nat)
  | write (descriptor : Nat) (data : Octets)
  | openFile (path : Octets) (mode : OpenMode)
  | close (descriptor : Nat)
  /-- Opens the first free descriptor from `least` on for the same file. One that is `hidden` is closed
  when the process becomes another program. -/
  | duplicate (descriptor least : Nat) (hidden : Bool)
  | duplicateTo (source target : Nat)
  | pipe
  | status (path : Octets) (follows : Bool)
  | descriptorStatus (descriptor : Nat)
  | list (path : Octets)
  | enter (path : Octets)
  | directory
  | await (patience : Patience)
  | signal (process : Int) (signal : Signal)
  | handle (signal : Signal) (handling : Handling)
  /-- The numbers of the process and of its parent. -/
  | numbers
  | ignored
  /-- The permissions that new files lack, and sets them. -/
  | mask (new : Option Nat)
deriving Repr

@[reducible] def Call.Reply : Call → Type
  | tick => List Signal
  | sleep _ => Unit
  | read _ _ => Except Errno Octets
  | write _ _ => Except Errno Unit
  | openFile _ _ => Except Errno Nat
  | close _ => Except Errno Unit
  | duplicate _ _ _ => Except Errno Nat
  | duplicateTo _ _ => Except Errno Unit
  | pipe => Nat × Nat
  | status _ _ => Except Errno FileStatus
  | descriptorStatus _ => Except Errno FileStatus
  | list _ => List Octets
  | enter _ => Except Errno Unit
  | directory => Octets
  | await _ => Except Errno (Option (Nat × Ending))
  | signal _ _ => Except Errno Unit
  | handle _ _ => Unit
  | numbers => Nat × Nat
  | ignored => List Signal
  | mask _ => Nat

inductive Program where
  | exit (status : Nat)
  | call (call : Call) (next : call.Reply → Program)
  /-- Goes on with the number of a new process, which carries out `child`. -/
  | fork (child : Unit → Program) (next : Nat → Program)
  /-- Becomes the program of a file, unless it is refused. -/
  | exec (path : Octets) (arguments environment : List Octets) (next : Errno → Program)

instance : Inhabited Program := ⟨.exit 0⟩

end ShellCompletion.Kernel
