import ShellCompletion.FileTree.Basic

/-!
# Refusals of the system

Why the system does not do what a process asks it for.
-/

namespace ShellCompletion.Kernel

inductive Errno where
  | notPermitted
  | noEntry
  | noProcess
  | interrupted
  | noDevice
  | notExecutable
  | badDescriptor
  | noChild
  | denied
  | fileExists
  | notDirectory
  | isDirectory
  | invalid
  | tooManyFiles
  | textBusy
  | noSpace
  | brokenPipe
  | nameTooLong
  | tooManyLinks
deriving DecidableEq, Repr

namespace Errno

def message : Errno → String
  | notPermitted => "Operation not permitted"
  | noEntry => "No such file or directory"
  | noProcess => "No such process"
  | interrupted => "Interrupted system call"
  | noDevice => "No such device or address"
  | notExecutable => "Exec format error"
  | badDescriptor => "Bad file descriptor"
  | noChild => "No child processes"
  | denied => "Permission denied"
  | fileExists => "File exists"
  | notDirectory => "Not a directory"
  | isDirectory => "Is a directory"
  | invalid => "Invalid argument"
  | tooManyFiles => "Too many open files"
  | textBusy => "Text file busy"
  | noSpace => "No space left on device"
  | brokenPipe => "Broken pipe"
  | nameTooLong => "File name too long"
  | tooManyLinks => "Too many levels of symbolic links"

def ofPath : PathError → Errno
  | .missing => noEntry
  | .notDirectory => notDirectory
  | .tooManyLinks => tooManyLinks
  | .tooLong => nameTooLong
  | .badName | .notText => invalid

end Errno

end ShellCompletion.Kernel
