import ShellCompletion.Engine
import ShellCompletion.Grammar.Compile
import ShellCompletion.Proofs.Dispatch.Hop
import ShellCompletion.Proofs.Suggestion.Policy

/-!
# What is suggested

Every answer is what one match policy selects from the candidates of one resolver, or from spellings,
for the word at the cursor (`offers_complete`): reading the words anew from an offset on does not change
that word. So suggestions ascend, and begin with what is typed unless a resolver brings its own policy
(`suggestions_ascend_and_extend`).
-/

namespace ShellCompletion

variable {σ : Type}

namespace Registry

/-- A resolver of the registry gives the answer to some request in some session. -/
def MayAnswer (registry : Registry σ) (answer : Answer) : Prop :=
  ∃ resolver, registry.Registered resolver ∧ ∃ request session, (resolver request session).1 = answer

/-- All candidates are matched by their leading text or as paths. -/
def MatchesText (registry : Registry σ) : Prop :=
  ∀ candidates policy, registry.MayAnswer (.candidates candidates policy) →
    policy = .leading ∨ policy = .path

/-- The items are a selection of spellings, or of candidates by the policy that came with them. -/
def Offers (registry : Registry σ) (typed : String) (items : List String) : Prop :=
  ∃ candidates policy, (policy = .leading ∨ registry.MayAnswer (.candidates candidates policy)) ∧
    items = policy.select candidates typed

variable {registry : Registry σ} {typed : String} {items : List String}

theorem offers_nil (registry : Registry σ) (typed : String) : registry.Offers typed [] :=
  ⟨[], .leading, .inl rfl, rfl⟩

theorem Offers.ascending (offers : registry.Offers typed items) : Names.Ascending items := by
  obtain ⟨candidates, policy, -, rfl⟩ := offers
  exact Policy.ascending_select ..

theorem Offers.extends (offers : registry.Offers typed items) (standard : registry.MatchesText)
    {item : String} (member : item ∈ items) : typed.toList <+: item.toList := by
  obtain ⟨candidates, policy, origin, rfl⟩ := offers
  have byText : policy = .leading ∨ policy = .path := by
    rcases origin with leading | answered
    · exact .inl leading
    · exact standard candidates policy answered
  exact Policy.extends_of_fits byText (Policy.mem_select.mp member).2

/-! ### One step -/

theorem offers_of_ask (name : String) {resolver : Option (Resolver σ)} {state : String} {parse : Parse}
    {words : List String} {session : σ}
    (known : registry.state? name = resolver ∨ registry.function? name = resolver)
    (settled : (ask resolver state parse words session).1 = .suggestions items) :
    registry.Offers parse.current items := by
  cases resolver with
  | none => exact Step.suggestions.inj settled ▸ offers_nil registry parse.current
  | some resolver =>
    have step : (ask (some resolver) state parse words session).1 =
        (resolver { state, typed := parse.current, parse, words } session).1.step parse.current := rfl
    cases answer : (resolver { state, typed := parse.current, parse, words } session).1 with
    | candidates candidates policy =>
      rw [step, answer] at settled
      exact ⟨candidates, policy, .inr ⟨resolver, ⟨name, known⟩, _, session, answer⟩,
        (Step.suggestions.inj settled).symm⟩
    | state name => rw [step, answer] at settled; cases settled
    | grammar next offset => rw [step, answer] at settled; cases settled

theorem offers_of_dispatch {grammar : Grammar} {parse : Parse} {words : List String} {session : σ}
    (settled : (registry.dispatch grammar parse words session).1 = .suggestions items) :
    registry.Offers parse.current items := by
  have eligible : registry.Offers parse.current (grammar.eligible parse) :=
    ⟨_, .leading, .inl rfl, rfl⟩
  rw [dispatch] at settled
  by_cases wanted : wantsFlags parse = true
  · rw [if_pos wanted] at settled
    exact Step.suggestions.inj settled ▸ eligible
  · rw [if_neg wanted] at settled
    cases action : parse.action with
    | literal =>
      rw [action] at settled
      exact Step.suggestions.inj settled ▸ eligible
    | state name => rw [action] at settled; cases settled
    | function name =>
      rw [action] at settled
      exact offers_of_ask name (.inr rfl) settled
    | nothing =>
      rw [action] at settled
      exact Step.suggestions.inj settled ▸ offers_nil registry parse.current

end Registry

/-! ### A whole request -/

/-- The stage is about the word `typed`, and so are its suggestions if it has any. -/
structure Stage.Asks (registry : Registry σ) (typed : String) (stage : Stage σ) : Prop where
  word : stage.words[stage.parse.cursor]?.getD "" = typed
  current : stage.parse.current = typed
  offers : ∀ items, stage.step = .suggestions items → registry.Offers typed items

namespace Registry

variable {registry : Registry σ} {typed : String}

theorem asks_opening (registry : Registry σ) (grammar : Grammar) (words : List String) (cursor : Nat)
    (session : σ) :
    (registry.opening grammar words cursor session).Asks registry (words[cursor]?.getD "") :=
  ⟨rfl, rfl, fun _ settled => offers_of_dispatch settled⟩

theorem asks_hop {stage next : Stage σ} (hop : registry.hop? stage = some next)
    (asks : stage.Asks registry typed) : next.Asks registry typed := by
  rcases hop?_eq_some_iff.mp hop with ⟨name, -, rfl⟩ | ⟨grammar, offset, -, below, -, rfl⟩
  · refine ⟨asks.word, asks.current, fun items settled => ?_⟩
    exact asks.current ▸ offers_of_ask name (.inl rfl) settled
  · -- The cursor moves with the words, so it is at the word that it was at.
    have same : (stage.words.drop offset)[stage.parse.cursor - offset]?.getD "" = typed := by
      rw [List.getElem?_drop, Nat.add_sub_cancel' below]
      exact asks.word
    exact same ▸ asks_opening registry grammar _ _ _

theorem offers_complete (registry : Registry σ) (hops : Nat) (grammar : Grammar) (words : List String)
    (cursor : Nat) (session : σ) :
    registry.Offers (words[cursor]?.getD "") (registry.complete hops grammar words cursor session).1 := by
  rw [complete_eq_run]
  have asks := run_keeps asks_hop hops (asks_opening registry grammar words cursor session)
  generalize registry.run hops (registry.opening grammar words cursor session) = last at asks ⊢
  show registry.Offers _ last.items
  unfold Stage.items
  split
  next items settled => exact asks.offers items settled
  next => exact offers_nil ..

end Registry

namespace Engine

variable {engine : Engine σ} {words : List String} {cursor : Nat}

/-- The selected registry completes the words from an offset on that does not exceed the cursor. -/
theorem complete_of_typed (typed : words ≠ []) :
    engine.complete words cursor = (engine.select words cursor).map fun selection =>
      let offset := min selection.offset (min cursor (words.length - 1))
      selection.registry.complete engine.hops selection.grammar (words.drop offset) (cursor - offset) := by
  have filled : words.isEmpty ≠ true := by simpa using typed
  rw [complete, explain, if_neg filled]
  cases engine.select words cursor <;> rfl

theorem offers_of_select {selection : Selection σ} (typed : words ≠ [])
    (selected : engine.select words cursor = .ok selection) :
    ∃ request, engine.complete words cursor = .ok request ∧
      ∀ session, selection.registry.Offers (words[cursor]?.getD "") (request session).1 := by
  have offers := selection.registry.offers_complete engine.hops selection.grammar
    (words.drop (min selection.offset (min cursor (words.length - 1))))
    (cursor - min selection.offset (min cursor (words.length - 1)))
  rw [List.getElem?_drop, Nat.add_sub_cancel' (by omega)] at offers
  refine ⟨_, ?_, offers⟩
  rw [complete_of_typed typed, selected]
  rfl

end Engine

/-- Whatever states and grammars a request goes through, its suggestions ascend, and they begin with the
word at the cursor if all candidates are matched by text. -/
theorem suggestions_ascend_and_extend :
    (∀ (registry : Registry σ) (hops : Nat) (grammar : Grammar) (words : List String) (cursor : Nat)
        (session : σ),
      let items := (registry.complete hops grammar words cursor session).1
      Names.Ascending items ∧
        (registry.MatchesText → ∀ item ∈ items, (words[cursor]?.getD "").toList <+: item.toList)) ∧
    ∀ (engine : Engine σ) (words : List String) (cursor : Nat) (request : StateM σ (List String)),
      engine.complete words cursor = .ok request → ∀ session,
        let items := (request session).1
        Names.Ascending items ∧
          ((∀ selection, engine.select words cursor = .ok selection → selection.registry.MatchesText) →
            ∀ item ∈ items, (words[cursor]?.getD "").toList <+: item.toList) := by
  constructor
  · intro registry hops grammar words cursor session items
    have offers := registry.offers_complete hops grammar words cursor session
    exact ⟨offers.ascending, fun standard item member => offers.extends standard member⟩
  · intro engine words cursor request answered session items
    by_cases typed : words = []
    · subst typed
      obtain rfl : pure [] = request := Except.ok.inj answered
      exact ⟨.nil, fun _ _ member => (List.not_mem_nil member).elim⟩
    · cases selected : engine.select words cursor with
      | error fault =>
        rw [Engine.complete_of_typed typed, selected] at answered
        cases answered
      | ok selection =>
        obtain ⟨other, completed, offers⟩ := Engine.offers_of_select typed selected
        obtain rfl := Except.ok.inj (completed.symm.trans answered)
        exact ⟨(offers session).ascending, fun standard item member =>
          (offers session).extends (standard selection rfl) member⟩

/-- The state `rest` hands the words from `run` on to a grammar that completes paths. -/
theorem suggestions_ascend_and_extend_delegated :
    let inner : Grammar := { slots := [⟨⟨[.state "file"], none⟩, true⟩] }
    let outer : Grammar := { slots := [⟨⟨[.state "command"], none⟩, false⟩, ⟨⟨[.state "rest"], none⟩, true⟩] }
    let registry : Registry Unit := { states := [
      ("file", .words ["src/main", "src/lib/", "doc/", "src/.git", "src/lib/"] .path),
      ("rest", fun _ => return .grammar inner 1)] }
    let engine : Engine Unit := { select := .ofGrammar outer registry }
    Grammar.compile [":command", ":*rest"] = .ok outer ∧ Grammar.compile [":*file"] = .ok inner ∧
      ∃ request, engine.complete ["tool", "run", "src/"] 2 = .ok request ∧
        (request ()).1 = ["src/lib/", "src/main"] ∧ Names.Ascending (request ()).1 ∧
        registry.MatchesText ∧ ∀ item ∈ (request ()).1, "src/".toList <+: item.toList := by
  intro inner outer registry engine
  have byText : registry.MatchesText := by
    rintro candidates policy ⟨resolver, registered, request, session, answered⟩
    obtain ⟨entry, inside, rfl⟩ := Registry.mem_of_registered registered
    rcases (by simpa [registry] using inside : entry = _ ∨ entry = _) with rfl | rfl
    · exact .inr (Answer.candidates.inj answered).2.symm
    · cases answered
  obtain ⟨ascending, extending⟩ := suggestions_ascend_and_extend.2 engine ["tool", "run", "src/"] 2 _ rfl ()
  refine ⟨rfl, rfl, _, rfl, by decide, ascending, byText, extending ?_⟩
  rintro selection selected
  obtain rfl := Except.ok.inj selected
  exact byText

end ShellCompletion
