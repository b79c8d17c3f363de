import ShellCompletion.Resolver.Basic

/-!
# Dispatching the word at the cursor

`dispatch` takes one step from the action of the word at the cursor, `resolveState` one step from a
state. `follow` takes steps until it has suggestions, over at most `hops` states and grammars; a request
that would need more of them gets no suggestions.
-/

namespace ShellCompletion

/-- The number of hops a request may take unless it is set otherwise. -/
def defaultHops : Nat := 8

inductive Step where
  | suggestions (items : List String)
  | state (name : String)
  | grammar (grammar : Grammar) (offset : Nat)

/-- The eligible spellings that begin with the typed text. -/
def Grammar.eligible (grammar : Grammar) (parse : Parse) : List String :=
  Policy.leading.select (grammar.spellings.filter (· ∉ parse.excluded)) parse.current

def Answer.step (typed : String) : Answer → Step
  | .candidates items policy => .suggestions (policy.select items typed)
  | .state name => .state name
  | .grammar next offset => .grammar next offset

namespace Registry

variable {σ : Type}

/-- Asks a resolver if there is one; nobody to ask means no suggestions. -/
def ask (resolver : Option (Resolver σ)) (state : String) (parse : Parse) (words : List String) :
    StateM σ Step :=
  match resolver with
  | some resolver => do
    let answer ← resolver { state, typed := parse.current, parse, words }
    return answer.step parse.current
  | none => return .suggestions []

/-- A dash where a positional word is expected asks for flags all the same. -/
def wantsFlags (parse : Parse) : Bool :=
  parse.current.toList.head? == some '-' && parse.role == some .positional

def dispatch (registry : Registry σ) (grammar : Grammar) (parse : Parse) (words : List String) :
    StateM σ Step :=
  if wantsFlags parse then return .suggestions (grammar.eligible parse)
  else
    match parse.action with
    | .literal => return .suggestions (grammar.eligible parse)
    | .state name => return .state name
    | .function name => ask (registry.function? name) name parse words
    | .nothing => return .suggestions []

def resolveState (registry : Registry σ) (state : String) (parse : Parse) (words : List String) :
    StateM σ Step :=
  ask (registry.state? state) state parse words

def follow (registry : Registry σ) (parse : Parse) (words : List String) :
    Nat → Step → StateM σ (List String)
  | _, .suggestions items => return items
  | 0, _ => return []
  | hops + 1, .state name => do
    follow registry parse words hops (← registry.resolveState name parse words)
  | hops + 1, .grammar next offset =>
    if parse.cursor < offset ∨ words.length < offset then return []
    else do
      let words := words.drop offset
      let parse := next.parse words (parse.cursor - offset)
      follow registry parse words hops (← registry.dispatch next parse words)

/-- The suggestions for a line that is read already. -/
def suggest (registry : Registry σ) (hops : Nat) (grammar : Grammar) (parse : Parse)
    (words : List String) : StateM σ (List String) := do
  registry.follow parse words hops (← registry.dispatch grammar parse words)

def complete (registry : Registry σ) (hops : Nat) (grammar : Grammar) (words : List String)
    (cursor : Nat) : StateM σ (List String) :=
  registry.suggest hops grammar (grammar.parse words cursor) words

end Registry

end ShellCompletion
