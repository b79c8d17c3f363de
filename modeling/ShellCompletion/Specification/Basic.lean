import ShellCompletion.Resolver.Command

/-!
# Specifications

A specification describes commands by name: the tokens of a grammar, the states that the grammar may
name, and further commands below it.
-/

namespace ShellCompletion

/-- A state as it is written down. One of the first four fields has to be set, and no other of them. -/
structure StateSpec where
  /-- A program and its arguments, which print the candidates. -/
  command : Option (List String) := none
  words : Option (List String) := none
  /-- A function that answers for the state. -/
  function : Option String := none
  /-- A state that answers for this one. -/
  state : Option String := none
  /-- How long the output of `command` is kept, in seconds. -/
  lifetime : Option Nat := none
  /-- How long `command` may take, in milliseconds. -/
  timeout : Option Nat := none
  policy : Policy := .leading

structure CommandSpec where
  tokens : List String := []
  states : List (String × StateSpec) := []
  subcommands : List (String × CommandSpec) := []

/-- What an answer for a state comes from. -/
inductive Source where
  | command (words : List String)
  | words (items : List String)
  | function (name : String)
  | state (name : String)
deriving DecidableEq, Repr

/-- The one kind of answer that is set. -/
def StateSpec.source? (spec : StateSpec) : Option Source :=
  match spec.command, spec.words, spec.function, spec.state with
  | some words, none, none, none => some (.command words)
  | none, some items, none, none => some (.words items)
  | none, none, some name, none => some (.function name)
  | none, none, none, some name => some (.state name)
  | _, _, _, _ => none

/-- What holds for external commands that do not say otherwise. -/
structure Settings where
  /-- In milliseconds. -/
  timeout : Nat := defaultTimeout
  /-- In seconds. -/
  lifetime : Nat := 0
deriving DecidableEq, Repr

end ShellCompletion
