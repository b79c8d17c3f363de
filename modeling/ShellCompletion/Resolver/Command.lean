import ShellCompletion.Resolver.Basic
import ShellCompletion.Text.Blank

/-!
# Resolvers backed by a command

A command prints one candidate on each line. It learns of the request from its environment. How a
program is run is left to a `Runner`.
-/

namespace ShellCompletion

/-- Milliseconds that a command may take unless it is set otherwise. -/
def defaultTimeout : Nat := 500

structure ExternalCommand where
  program : String
  arguments : List String := []
  /-- In milliseconds. -/
  timeout : Nat := defaultTimeout
  policy : Policy := .leading

/-- Runs a program with arguments, additions to the environment and a time limit in milliseconds, and
gives its output unless it failed. -/
abbrev Runner (ω : Type) :=
  String → List String → List (String × String) → Nat → StateM ω (Option String)

/-- What a command sees of a request. -/
def Request.environment (request : Request) : List (String × String) := [
  ("COMPLINE_STATE", request.state),
  ("COMPLINE_PARTIAL", request.typed),
  ("COMPLINE_LINE", " ".intercalate request.words)]

/-- The lines of an output without the blanks at their end; empty ones are left out. -/
def outputLines (output : String) : List String :=
  (((output.toList.splitOn '\n').map Text.trimEnd).filter (· ≠ [])).map String.ofList

def Resolver.command {ω : Type} (run : Runner ω) (command : ExternalCommand) : Resolver ω :=
  fun request => do
    let output ← run command.program command.arguments request.environment command.timeout
    return .candidates (outputLines (output.getD "")) command.policy

end ShellCompletion
