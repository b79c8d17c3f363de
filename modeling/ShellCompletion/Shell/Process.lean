import ShellCompletion.Kernel.Run
import ShellCompletion.Kernel.Sleep
import ShellCompletion.Resolver.Command
import ShellCompletion.Shell.Start

/-!
# Running programs

`World.runProgram` starts a program in a world with a time limit and gives what it wrote to its output. A
program that cannot be started, fails, is killed or takes too long gives nothing. What it has done to the
files stays.
-/

namespace ShellCompletion

def systemPrograms : Kernel.Programs
  | .shell => Shell.program
  | .sleep => fun arguments _ => Kernel.Sleep.program arguments

/-- Runs a program in the world, with its arguments and additions to the environment. -/
def World.runProgram : Runner World := fun program arguments environment limit world =>
  match Kernel.Machine.start systemPrograms world program arguments environment limit with
  | none => (none, world)
  | some machine => (machine.result.map Text.decode, { world with tree := machine.tree })

end ShellCompletion
