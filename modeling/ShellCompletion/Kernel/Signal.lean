/-!
# Signals

A signal is known by its number and by its name. What a signal does to a process that has made no
provision for it is its `Effect`.
-/

namespace ShellCompletion.Kernel

abbrev Signal := Nat

namespace Signal

/-- One more than the greatest number of a signal. -/
def bound : Nat := 65

def interrupt : Signal := 2
def quit : Signal := 3
def arithmeticFault : Signal := 8
def kill : Signal := 9
def memoryFault : Signal := 11
def brokenPipe : Signal := 13
def terminate : Signal := 15
def child : Signal := 17
def resume : Signal := 18
def stop : Signal := 19

/-- The names of the signals from number 1 on. -/
def basicNames : List String := [
  "HUP", "INT", "QUIT", "ILL", "TRAP", "ABRT", "BUS", "FPE", "KILL", "USR1", "SEGV", "USR2", "PIPE",
  "ALRM", "TERM", "STKFLT", "CHLD", "CONT", "STOP", "TSTP", "TTIN", "TTOU", "URG", "XCPU", "XFSZ",
  "VTALRM", "PROF", "WINCH", "IO", "PWR", "SYS"]

/-- The name of a signal; those for the use of programs count up from the least and down to the
greatest of them. -/
def name? (signal : Signal) : Option String :=
  if signal = 34 then some "RTMIN"
  else if 34 < signal && signal ≤ 49 then some ("RTMIN+" ++ toString (signal - 34))
  else if 49 < signal && signal < 64 then some ("RTMAX-" ++ toString (64 - signal))
  else if signal = 64 then some "RTMAX"
  else if signal = 0 then none
  else basicNames[signal - 1]?

/-- What becomes of a process by a signal that it neither ignores nor catches. -/
inductive Effect where
  | ends
  | stops
  | resumes
  | none
deriving DecidableEq, Repr

def effect (signal : Signal) : Effect :=
  if signal = 17 || signal = 23 || signal = 28 then .none
  else if signal = 18 then .resumes
  else if 19 ≤ signal && signal ≤ 22 then .stops
  else .ends

/-- What a shell says of a process that a signal has ended. -/
def description (signal : Signal) : String :=
  match signal with
  | 1 => "Hangup"
  | 2 => "Interrupt"
  | 3 => "Quit"
  | 4 => "Illegal instruction"
  | 5 => "Trace/breakpoint trap"
  | 6 => "Aborted"
  | 7 => "Bus error"
  | 8 => "Floating point exception"
  | 9 => "Killed"
  | 10 => "User defined signal 1"
  | 11 => "Segmentation fault"
  | 12 => "User defined signal 2"
  | 13 => "Broken pipe"
  | 14 => "Alarm clock"
  | 15 => "Terminated"
  | 16 => "Stack fault"
  | 17 => "Child exited"
  | 18 => "Continued"
  | 19 => "Stopped (signal)"
  | 20 => "Stopped"
  | 21 => "Stopped (tty input)"
  | 22 => "Stopped (tty output)"
  | 23 => "Urgent I/O condition"
  | 24 => "CPU time limit exceeded"
  | 25 => "File size limit exceeded"
  | 26 => "Virtual timer expired"
  | 27 => "Profiling timer expired"
  | 28 => "Window changed"
  | 29 => "I/O possible"
  | 30 => "Power failure"
  | 31 => "Bad system call"
  | _ => "Real-time signal " ++ toString (signal - 34)

end Signal

end ShellCompletion.Kernel
