import ShellCompletion.Grammar.Compile
import ShellCompletion.Specification.State

/-!
# Command trees

A command tree holds a grammar and resolvers for each command of a specification. It is built depth
first, a command before those below it, and building ends with the first fault. A command inherits the
states of the command above it. The names of its own subcommands are the words of one more state, which
is not inherited.
-/

namespace ShellCompletion

structure CommandNode (σ : Type) where
  grammar : Grammar
  registry : Registry σ
  subcommands : List (String × CommandNode σ)

abbrev CommandTree (σ : Type) := List (String × CommandNode σ)

/-- The state whose words are the names of the subcommands. -/
def subcommandsState : String := "subcommands"

/-- The names that lead to a command, between spaces. -/
def pathText (path : List String) : String := " ".intercalate path

section Build

variable {ω : Type} (workshop : Workshop ω)

/-- Adds the states of the command at `path` to those of the commands above it. -/
def addStates (path : List String) (registry : Registry (Session ω)) :
    List (String × StateSpec) → Except SpecError (Registry (Session ω))
  | [] => .ok registry
  | (name, spec) :: rest =>
    match spec.resolver workshop registry ⟨path, name⟩ with
    | .ok resolver => addStates path (registry.addState name resolver) rest
    | .error fault => .error (.badState (pathText path) name fault)

/-- Adds the state that lists the subcommands, if there are any. -/
def withSubcommands {σ : Type} (registry : Registry σ) : List String → Registry σ
  | [] => registry
  | names => registry.addState subcommandsState (.words names)

mutual

/-- Builds the command at `path`; it inherits the states of `inherited`. -/
def CommandSpec.build (path : List String) (inherited : Registry (Session ω)) :
    CommandSpec → Except SpecError (CommandNode (Session ω))
  | { tokens, states, subcommands } => do
    let grammar ← (Grammar.compile tokens).mapError (.badGrammar (pathText path))
    let registry ← addStates workshop path inherited states
    let nodes ← buildAll path registry subcommands
    return {
      grammar
      registry := withSubcommands registry (subcommands.map (·.1))
      subcommands := nodes }

/-- Builds the commands below `path` in order. -/
def buildAll (path : List String) (inherited : Registry (Session ω)) :
    List (String × CommandSpec) → Except SpecError (CommandTree (Session ω))
  | [] => .ok []
  | (name, spec) :: rest => do
    let node ← spec.build (path ++ [name]) inherited
    return (name, node) :: (← buildAll path inherited rest)

end

end Build

namespace CommandNode

variable {σ : Type}

/-- The node below this one along a path. -/
def below? (node : CommandNode σ) : List String → Option (CommandNode σ)
  | [] => some node
  | name :: rest => (node.subcommands.lookup name).bind (below? · rest)

end CommandNode

namespace CommandTree

variable {σ : Type}

def names (tree : CommandTree σ) : List String := tree.map (·.1)

def node? (tree : CommandTree σ) : List String → Option (CommandNode σ)
  | [] => none
  | name :: rest => (tree.lookup name).bind (·.below? rest)

def grammar? (tree : CommandTree σ) (path : List String) : Option Grammar :=
  (tree.node? path).map (·.grammar)

/-- The names of the states that the command at `path` has or inherits. -/
def states? (tree : CommandTree σ) (path : List String) : Option (List String) :=
  (tree.node? path).map (·.registry.stateNames)

mutual

/-- The paths of a node and of those below it, where `path` leads to the node. -/
def pathsFrom (path : List String) : CommandNode σ → List (List String)
  | { subcommands, .. } => path :: pathsBelow path subcommands

def pathsBelow (path : List String) : List (String × CommandNode σ) → List (List String)
  | [] => []
  | (name, node) :: rest => pathsFrom (path ++ [name]) node ++ pathsBelow path rest

end

/-- The paths of all commands, each before those below it. -/
def paths (tree : CommandTree σ) : List (List String) := pathsBelow [] tree

end CommandTree

end ShellCompletion
