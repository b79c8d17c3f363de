import ShellCompletion.Proofs.Specification.Inheritance

/-!
# Specifications without lifetimes

`timeless` drops what a specification says on how long outputs are kept. The same paths lead to the same
commands then (`command?_timeless`), the same definitions are nearest (`Nearest.timeless`), and the same faults
come first (`firstFault?_timeless`), whatever the workshop.
-/

namespace ShellCompletion

/-! ### Dropping lifetimes -/

def StateSpec.timeless (spec : StateSpec) : StateSpec := { spec with lifetime := none }

theorem StateSpec.source?_timeless (spec : StateSpec) : spec.timeless.source? = spec.source? := rfl

theorem StateSpec.policy_timeless (spec : StateSpec) : spec.timeless.policy = spec.policy := rfl

mutual

def CommandSpec.timeless : CommandSpec → CommandSpec
  | { tokens, states, subcommands } =>
    { tokens
      states := states.map fun (name, state) => (name, state.timeless)
      subcommands := timelessAll subcommands }

def CommandSpec.timelessAll : List (String × CommandSpec) → List (String × CommandSpec)
  | [] => []
  | (name, spec) :: rest => (name, spec.timeless) :: timelessAll rest

end

def Specification.timeless (commands : Specification) : Specification := CommandSpec.timelessAll commands

namespace CommandSpec

variable (spec : CommandSpec) (commands : List (String × CommandSpec))

theorem timelessAll_eq_map : timelessAll commands = commands.map fun entry => (entry.1, entry.2.timeless) := by
  induction commands with
  | nil => rfl
  | cons entry rest ih =>
    obtain ⟨name, spec⟩ := entry
    rw [timelessAll, ih]
    rfl

theorem tokens_timeless : spec.timeless.tokens = spec.tokens := by
  cases spec
  rfl

theorem states_timeless :
    spec.timeless.states = spec.states.map fun entry => (entry.1, entry.2.timeless) := by
  cases spec
  rfl

theorem subcommands_timeless : spec.timeless.subcommands = timelessAll spec.subcommands := by
  cases spec
  rfl

theorem lookup_timelessAll (name : String) :
    (timelessAll commands).lookup name = (commands.lookup name).map timeless := by
  rw [timelessAll_eq_map, Table.lookup_map]

theorem lookup_states_timeless (name : String) :
    spec.timeless.states.lookup name = (spec.states.lookup name).map StateSpec.timeless := by
  rw [states_timeless, Table.lookup_map]

theorem names_subcommands_timeless : Table.names spec.timeless.subcommands = Table.names spec.subcommands := by
  rw [subcommands_timeless, timelessAll_eq_map, Table.names_map]

theorem below?_timeless (path : List String) : spec.timeless.below? path = (spec.below? path).map timeless := by
  induction path generalizing spec with
  | nil => rfl
  | cons name rest ih =>
    rw [below?, below?, subcommands_timeless, lookup_timelessAll]
    cases spec.subcommands.lookup name with
    | none => rfl
    | some child => exact ih child

mutual

theorem nodes_timeless : (spec : CommandSpec) →
    spec.timeless.nodes = spec.nodes.map fun node => (node.1, node.2.timeless)
  | { tokens, states, subcommands } => by
    rw [nodes_eq, subcommands_timeless, nodes_eq, nodesBelow_timelessAll subcommands]
    rfl

theorem nodesBelow_timelessAll : (commands : List (String × CommandSpec)) →
    nodesBelow (timelessAll commands) = (nodesBelow commands).map fun node => (node.1, node.2.timeless)
  | [] => rfl
  | (name, spec) :: rest => by
    rw [timelessAll, nodesBelow, nodesBelow, nodes_timeless spec, nodesBelow_timelessAll rest]
    simp

end

end CommandSpec

namespace Specification

variable {ω : Type} {commands : Specification} {path origin : List String} {name : String} {state : StateSpec}

theorem command?_timeless (commands : Specification) (path : List String) :
    commands.timeless.command? path = (commands.command? path).map CommandSpec.timeless := by
  cases path with
  | nil => rfl
  | cons name rest =>
    rw [command?, command?, timeless, CommandSpec.lookup_timelessAll]
    cases commands.lookup name with
    | none => rfl
    | some spec => exact spec.below?_timeless rest

theorem UndefinedFrom.timeless {least : Nat} (h : commands.UndefinedFrom path name least) :
    commands.timeless.UndefinedFrom path name least := by
  intro lower spec between deep found
  rw [command?_timeless, Option.map_eq_some_iff] at found
  obtain ⟨timed, found, rfl⟩ := found
  rw [CommandSpec.lookup_states_timeless, h lower timed between deep found, Option.map_none]

theorem Nearest.timeless (h : commands.Nearest path name origin state) :
    commands.timeless.Nearest path name origin state.timeless where
  above := h.above
  defined := by
    obtain ⟨spec, found, defines⟩ := h.defined
    refine ⟨spec.timeless, by rw [command?_timeless, found]; rfl, ?_⟩
    rw [CommandSpec.lookup_states_timeless, defines, Option.map_some]
  last := h.last.timeless

end Specification

/-! ### Faults -/

section

variable {ω : Type} {registry : Registry (Session ω)} (workshop other : Workshop ω)

theorem StateSpec.fault?_timeless (path : List String) (entry : String × StateSpec) :
    fault? workshop registry path (entry.1, entry.2.timeless) = fault? other registry path entry := by
  refine Option.ext fun error => ?_
  rw [fault?_eq_some_iff, fault?_eq_some_iff]
  rfl

namespace CommandSpec

theorem fault?_timeless (path : List String) (spec : CommandSpec) :
    spec.timeless.fault? workshop registry path = spec.fault? other registry path := by
  rw [fault?, fault?, tokens_timeless, states_timeless, List.findSome?_map]
  split
  next => rfl
  next => exact congrArg (List.findSome? · spec.states) (funext (StateSpec.fault?_timeless workshop other path))

theorem firstFault?_timeless (path : List String) (commands : List (String × CommandSpec)) :
    firstFault? workshop registry path (nodesBelow (timelessAll commands)) =
      firstFault? other registry path (nodesBelow commands) := by
  rw [firstFault?, firstFault?, nodesBelow_timelessAll, List.findSome?_map]
  exact congrArg (List.findSome? · (nodesBelow commands))
    (funext fun node => fault?_timeless workshop other (path ++ node.1) node.2)

end CommandSpec

end

end ShellCompletion
