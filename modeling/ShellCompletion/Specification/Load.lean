import ShellCompletion.FileTree.World
import ShellCompletion.Specification.Reader
import ShellCompletion.Specification.Tree

/-!
# Loading specifications

The commands of a specification are built; it may come from a text, and the text from a file of the world.
-/

namespace ShellCompletion.CommandTree

variable {ω : Type}

/-- Builds the commands; what the caller has in `registry` is known to all of them. -/
def ofSpecification (workshop : Workshop ω) (registry : Registry (Session ω))
    (commands : Specification) : Except Error (CommandTree (Session ω)) :=
  (buildAll workshop [] registry commands).mapError .spec

def ofText (workshop : Workshop ω) (registry : Registry (Session ω)) (text : String) :
    Except Error (CommandTree (Session ω)) :=
  match Specification.read? text with
  | none => .error .document
  | some commands => ofSpecification workshop registry commands

def ofFile (workshop : Workshop ω) (registry : Registry (Session ω)) (world : World)
    (path : OsText) : Except Error (CommandTree (Session ω)) :=
  match world.readFile path with
  | .ok text => ofText workshop registry text
  | .error .missing => .error (.spec (.notFound path.shown))
  | .error _ => .error .file

end ShellCompletion.CommandTree
