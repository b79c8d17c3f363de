import ShellCompletion.Proofs.Dispatch.Suggestions

/-!
# The origin of suggestions

Resolvers that never name a grammar leave a line to the grammar that it was read against, and those that change
nothing when they name a state leave the first candidates to the session in which the request began. So every
suggestion is a spelling of that grammar, or a candidate for the word at the cursor in that session
(`supplied_complete`).
-/

namespace ShellCompletion

variable {σ : Type} {supply : String → String → Prop} {session : σ}

/-- In the session the resolver gives candidates out of the supply for the typed text, or it names a state and
changes nothing. -/
def Resolver.DrawsOn (supply : String → String → Prop) (session : σ) (resolver : Resolver σ) : Prop :=
  ∀ request, (∃ items policy, (resolver request session).1 = .candidates items policy ∧
      ∀ item ∈ items, supply request.typed item) ∨
    ∃ name, resolver request session = (.state name, session)

theorem Resolver.DrawsOn.mono {wider : String → String → Prop} {resolver : Resolver σ}
    (draws : resolver.DrawsOn supply session) (wide : ∀ typed item, supply typed item → wider typed item) :
    resolver.DrawsOn wider session := by
  intro request
  rcases draws request with ⟨items, policy, answer, supplied⟩ | state
  · exact .inl ⟨items, policy, answer, fun item member => wide _ _ (supplied item member)⟩
  · exact .inr state

/-- All resolvers draw on the supply. -/
def Registry.DrawsOn (supply : String → String → Prop) (session : σ) (registry : Registry σ) : Prop :=
  ∀ resolver, registry.Registered resolver → resolver.DrawsOn supply session

/-- The request has suggestions for the text `typed`, or it is to ask a state in the session in which it began. -/
structure Stage.Begun (grammar : Grammar) (supply : String → String → Prop) (session : σ) (typed : String)
    (stage : Stage σ) : Prop where
  current : stage.parse.current = typed
  step : (∃ items, stage.step = .suggestions items ∧
      ∀ item ∈ items, item ∈ grammar.spellings ∨ supply typed item) ∨
    ∃ name, stage.step = .state name ∧ stage.session = session

namespace Registry

variable {registry : Registry σ} {grammar : Grammar} {typed : String}

theorem begun_ask (draws : registry.DrawsOn supply session) (name : String) {resolver : Option (Resolver σ)}
    (known : registry.state? name = resolver ∨ registry.function? name = resolver) (state : String) (parse : Parse)
    (words : List String) :
    let asked := ask resolver state parse words session
    Stage.Begun grammar supply session parse.current { parse, words, step := asked.1, session := asked.2 } := by
  refine ⟨rfl, ?_⟩
  cases resolver with
  | none => exact .inl ⟨[], rfl, List.forall_mem_nil _⟩
  | some resolver =>
    let request : Request := { state, typed := parse.current, parse, words }
    have step : (ask (some resolver) state parse words session).1 =
        (resolver request session).1.step parse.current := rfl
    rcases draws resolver ⟨name, known⟩ request with ⟨items, policy, answer, supplied⟩ | ⟨next, answer⟩
    · refine .inl ⟨policy.select items parse.current, ?_, fun item member => ?_⟩
      · rw [step, answer]
        rfl
      · exact .inr (supplied item (Policy.mem_select.mp member).1)
    · refine .inr ⟨next, ?_, congrArg Prod.snd answer⟩
      rw [step, answer]
      rfl

theorem begun_opening (draws : registry.DrawsOn supply session) (grammar : Grammar) (words : List String)
    (cursor : Nat) :
    (registry.opening grammar words cursor session).Begun grammar supply session (words[cursor]?.getD "") := by
  let parse := grammar.parse words cursor
  have spellings : Stage.Begun grammar supply session parse.current
      { parse, words, step := .suggestions (grammar.eligible parse), session } :=
    ⟨rfl, .inl ⟨_, rfl, fun _ member => .inl (List.mem_filter.mp (Policy.mem_select.mp member).1).1⟩⟩
  rw [opening, dispatch]
  by_cases wanted : wantsFlags parse = true
  · rw [if_pos wanted]
    exact spellings
  · rw [if_neg wanted]
    cases parse.action with
    | literal => exact spellings
    | state name => exact ⟨rfl, .inr ⟨name, rfl, rfl⟩⟩
    | function name => exact begun_ask draws name (.inr rfl) name parse words
    | nothing => exact ⟨rfl, .inl ⟨[], rfl, List.forall_mem_nil _⟩⟩

theorem begun_hop (draws : registry.DrawsOn supply session) {stage next : Stage σ}
    (hop : registry.hop? stage = some next) (begun : stage.Begun grammar supply session typed) :
    next.Begun grammar supply session typed := by
  rcases begun.step with ⟨items, settled, -⟩ | ⟨name, step, fresh⟩
  · rw [hop?_of_suggestions settled] at hop
    cases hop
  · rcases hop?_eq_some_iff.mp hop with ⟨name, -, rfl⟩ | ⟨_, _, other, -⟩
    · rw [← begun.current, fresh]
      exact begun_ask draws name (.inl rfl) name stage.parse stage.words
    · rw [step] at other
      cases other

/-- Every suggestion is a spelling of the grammar, or comes out of the supply for the word at the cursor. -/
theorem supplied_complete (draws : registry.DrawsOn supply session) (hops : Nat) (grammar : Grammar)
    (words : List String) (cursor : Nat) :
    ∀ item ∈ (registry.complete hops grammar words cursor session).1,
      item ∈ grammar.spellings ∨ supply (words[cursor]?.getD "") item := by
  rw [complete_eq_run]
  have begun := run_keeps (begun_hop draws) hops (begun_opening draws grammar words cursor)
  generalize registry.run hops (registry.opening grammar words cursor session) = last at begun ⊢
  show ∀ item ∈ last.items, _
  rcases begun.step with ⟨items, settled, supplied⟩ | ⟨name, step, -⟩
  · rw [Stage.items_of_suggestions settled]
    exact supplied
  · rw [Stage.items, step]
    exact List.forall_mem_nil _

end Registry

end ShellCompletion
