import ShellCompletion.Engine
import ShellCompletion.FileTree.Path
import ShellCompletion.Specification.Tree

/-!
# Selecting a command

The first word of a line selects a command by its last path name. From there the line leads to a
subcommand as long as the first positional word before the cursor names one.
-/

namespace ShellCompletion

def Reading.isPositional : Reading → Bool
  | .positional _ => true
  | _ => false

def Grammar.firstPositional? (grammar : Grammar) (words : List String) : Option Nat :=
  (grammar.readings words).findIdx? Reading.isPositional

/-- The command word is not positional. -/
theorem Grammar.pos_of_firstPositional? {grammar : Grammar} {words : List String} {index : Nat}
    (h : grammar.firstPositional? words = some index) : 0 < index ∧ index < words.length := by
  obtain ⟨bound, positional, _⟩ := List.findIdx?_eq_some_iff_getElem.mp h
  refine ⟨Nat.pos_of_ne_zero ?_, by simpa using bound⟩
  rintro rfl
  cases words with
  | nil => simp [Grammar.readings] at bound
  | cons => simp [Grammar.readings, Reading.isPositional] at positional

namespace CommandNode

variable {σ : Type}

/-- The subcommand that the typed words lead to, and the index of the word that names it. -/
def next? (node : CommandNode σ) (typed : List String) : Option (Nat × CommandNode σ) := do
  let index ← node.grammar.firstPositional? typed
  let name ← typed[index]?
  return (index, ← node.subcommands.lookup name)

theorem pos_of_next? {node child : CommandNode σ} {typed : List String} {index : Nat}
    (h : node.next? typed = some (index, child)) : 0 < index ∧ index < typed.length := by
  simp only [next?, bind, Option.bind_eq_some_iff, pure, Option.some.injEq, Prod.mk.injEq] at h
  obtain ⟨found, first, name, _, node, _, rfl, _⟩ := h
  exact Grammar.pos_of_firstPositional? first

/-- The node that the typed words lead to, and the index of the word that is its command word. -/
def descend (node : CommandNode σ) (typed : List String) : Nat × CommandNode σ :=
  match _h : node.next? typed with
  | some (index, child) =>
    let (offset, reached) := child.descend (typed.drop index)
    (index + offset, reached)
  | none => (0, node)
termination_by typed.length
decreasing_by
  have := pos_of_next? _h
  simp only [List.length_drop]
  omega

end CommandNode

/-- Selects by the words before the cursor. -/
def CommandTree.select {σ : Type} (tree : CommandTree σ) : Selector σ := fun words cursor =>
  let command := Path.baseName (words.headD "")
  match tree.lookup command with
  | none => .error (.spec (.unknownCommand command))
  | some node =>
    let (offset, reached) := node.descend (words.take cursor)
    .ok { grammar := reached.grammar, offset, registry := reached.registry }

end ShellCompletion
