/-!
# Actions and chains

An action says what a word completes as. A chain owes one action to each of the words that follow a flag
or fill a slot; after its fixed actions a chain may repeat one tail action for every further word.
-/

namespace ShellCompletion

inductive Action where
  /-- The flags that are still eligible. -/
  | literal
  /-- The words of a named state. -/
  | state (name : String)
  /-- The answer of a registered function. -/
  | function (name : String)
  /-- A word is accepted and nothing is suggested. -/
  | nothing
deriving DecidableEq, Repr

/-- An action as it is written in a grammar token. -/
def Action.text : Action → String
  | .literal => "-"
  | .state name => name
  | .function name => name ++ "()"
  | .nothing => ""

structure Chain where
  fixed : List Action := []
  tail : Option Action := none
deriving DecidableEq, Repr

namespace Chain

/-- The chain of `actions` in order; with `repeating` the last of them, if any, becomes the tail. -/
def ofActions (actions : List Action) (repeating : Bool) : Chain :=
  match repeating, actions.getLast? with
  | true, some last => ⟨actions.dropLast, some last⟩
  | _, _ => ⟨actions, none⟩

def actions (chain : Chain) : List Action := chain.fixed ++ chain.tail.toList

def repeats (chain : Chain) : Bool := chain.tail.isSome

def size (chain : Chain) : Nat := chain.actions.length

def isEmpty (chain : Chain) : Bool := chain.actions.isEmpty

/-- The action owed to the next word, and what is owed after it. -/
def next? : Chain → Option (Action × Chain)
  | ⟨action :: rest, tail⟩ => some (action, ⟨rest, tail⟩)
  | ⟨[], some action⟩ => some (action, ⟨[], some action⟩)
  | ⟨[], none⟩ => none

def first? (chain : Chain) : Option Action := chain.next?.map (·.1)

/-- What is owed after the first action. -/
def rest (chain : Chain) : Chain :=
  match chain.next? with
  | some (_, rest) => rest
  | none => chain

/-- Only the tail is left to be owed. -/
def onlyTail (chain : Chain) : Bool := chain.fixed.isEmpty && chain.tail.isSome

/-- A chain as it is written in a grammar token, with a star on the tail. -/
def text (chain : Chain) : String :=
  ":".intercalate (chain.fixed.map Action.text ++ chain.tail.toList.map ("*" ++ ·.text))

theorem first?_eq_head? (chain : Chain) : chain.first? = chain.actions.head? := by
  obtain ⟨fixed, tail⟩ := chain
  cases fixed <;> cases tail <;> rfl

end Chain

end ShellCompletion
