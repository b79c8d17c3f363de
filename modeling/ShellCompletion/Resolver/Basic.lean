import ShellCompletion.Line.Parse
import ShellCompletion.Suggestion.Policy
import ShellCompletion.Table

/-!
# Resolvers

A resolver answers a request for the words of a state or function: with candidates and a match policy,
with another state to ask, or with another grammar to read the words against. It may look at the whole
request and may use and change a session `σ`.
-/

namespace ShellCompletion

structure Request where
  /-- The state or function that is asked. -/
  state : String
  /-- The text typed so far for the word at the cursor. -/
  typed : String
  parse : Parse
  /-- The words that were read, command word first. -/
  words : List String
deriving DecidableEq, Repr

inductive Answer where
  | candidates (items : List String) (policy : Policy)
  | state (name : String)
  /-- Read the words from `offset` on against `grammar`. -/
  | grammar (grammar : Grammar) (offset : Nat)

abbrev Resolver (σ : Type) := Request → StateM σ Answer

def Resolver.words {σ : Type} (items : List String) (policy : Policy := .leading) : Resolver σ :=
  fun _ => return .candidates items policy

/-- A resolver that sends every request on to the state `name`. -/
def Resolver.alias {σ : Type} (name : String) : Resolver σ := fun _ => return .state name

/-- A resolver of a part of the session. -/
def Resolver.within {σ τ : Type} (get : τ → σ) (set : σ → τ → τ) (resolver : Resolver σ) :
    Resolver τ :=
  fun request whole =>
    let (answer, part) := resolver request (get whole)
    (answer, set part whole)

/-- The resolvers by the names of the states and functions they answer for. -/
structure Registry (σ : Type) where
  states : Table (Resolver σ) := []
  functions : Table (Resolver σ) := []

namespace Registry

variable {σ : Type}

def state? (registry : Registry σ) (name : String) : Option (Resolver σ) :=
  registry.states.lookup name

def function? (registry : Registry σ) (name : String) : Option (Resolver σ) :=
  registry.functions.lookup name

/-- The registry has the resolver for some state or function. -/
def Registered (registry : Registry σ) (resolver : Resolver σ) : Prop :=
  ∃ name, registry.state? name = some resolver ∨ registry.function? name = some resolver

theorem mem_of_registered {registry : Registry σ} {resolver : Resolver σ}
    (registered : registry.Registered resolver) :
    ∃ entry ∈ registry.states ++ registry.functions, entry.2 = resolver := by
  obtain ⟨name, found⟩ := registered
  refine ⟨(name, resolver), List.mem_append.mpr ?_, rfl⟩
  rcases found with found | found
  all_goals
    obtain ⟨before, after, whole, -⟩ := List.lookup_eq_some_iff.mp found
    simp [whole]

def addState (registry : Registry σ) (name : String) (resolver : Resolver σ) : Registry σ :=
  { registry with states := registry.states.insert name resolver }

def addFunction (registry : Registry σ) (name : String) (resolver : Resolver σ) : Registry σ :=
  { registry with functions := registry.functions.insert name resolver }

/-- The names of the states, ascending. -/
def stateNames (registry : Registry σ) : List String := Names.ofList registry.states.names

def functionNames (registry : Registry σ) : List String := Names.ofList registry.functions.names

end Registry

end ShellCompletion
