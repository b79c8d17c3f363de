import ShellCompletion.Dispatch
import ShellCompletion.Error

/-!
# Completion requests

A selector picks the grammar and resolvers for a line and says from which word on they apply. The engine
reads the line from that word on and gives the suggestions together with how it understood the line.
-/

namespace ShellCompletion

structure Selection (σ : Type) where
  grammar : Grammar
  /-- The word that is the command word of `grammar`. -/
  offset : Nat
  registry : Registry σ

abbrev Selector (σ : Type) := List String → Nat → Except Error (Selection σ)

def Selector.ofGrammar {σ : Type} (grammar : Grammar) (registry : Registry σ) : Selector σ :=
  fun _ _ => .ok { grammar, offset := 0, registry }

structure Explanation where
  offset : Nat
  /-- The words that were read, and the cursor among them. -/
  words : List String
  cursor : Nat
  action : Action
  role : Option Role
  parse : Parse
  suggestions : List String
deriving DecidableEq, Repr

structure Engine (σ : Type) where
  select : Selector σ
  hops : Nat := defaultHops

namespace Engine

variable {σ : Type}

/-- Explains a line under a selection that is brought into the range of the line. -/
def explainSelection (engine : Engine σ) (selection : Selection σ) (words : List String)
    (cursor : Nat) : StateM σ Explanation := do
  let offset := min selection.offset (min cursor (words.length - 1))
  let words := words.drop offset
  let cursor := cursor - offset
  let parse := selection.grammar.parse words cursor
  let suggestions ← selection.registry.suggest engine.hops selection.grammar parse words
  return { offset, words, cursor, action := parse.action, role := parse.role, parse, suggestions }

/-- An empty line has no suggestions; otherwise a request fails only if no grammar is selected. -/
def explain (engine : Engine σ) (words : List String) (cursor : Nat) :
    Except Error (StateM σ Explanation) :=
  if words.isEmpty then
    .ok <| return {
      offset := 0, words, cursor, action := .literal, role := none, parse := {}, suggestions := [] }
  else (engine.select words cursor).map fun selection =>
    engine.explainSelection selection words cursor

def complete (engine : Engine σ) (words : List String) (cursor : Nat) :
    Except Error (StateM σ (List String)) :=
  (engine.explain words cursor).map fun explain => do return (← explain).suggestions

end Engine

end ShellCompletion
