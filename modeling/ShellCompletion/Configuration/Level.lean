/-!
# Log levels

The levels of log messages, from those that always matter to those that only help to find faults.
-/

namespace ShellCompletion

inductive LogLevel where
  | error
  | warn
  | info
  | debug
  | trace
deriving DecidableEq, Repr

namespace LogLevel

def next : LogLevel → LogLevel
  | .error => .warn
  | .warn => .info
  | .info => .debug
  | .debug => .trace
  | .trace => .trace

/-- The level that shows more by a number of steps; nothing shows more than `trace`. -/
def raised (level : LogLevel) : Nat → LogLevel
  | 0 => level
  | steps + 1 => level.next.raised steps

def name : LogLevel → String
  | .error => "error"
  | .warn => "warn"
  | .info => "info"
  | .debug => "debug"
  | .trace => "trace"

def all : List LogLevel := [.error, .warn, .info, .debug, .trace]

def ofName? (name : String) : Option LogLevel := all.find? (·.name = name)

theorem ofName?_name (level : LogLevel) : ofName? level.name = some level := by
  cases level <;> rfl

end LogLevel

end ShellCompletion
