import ShellCompletion.Dispatch

/-!
# Hops of a request

A request moves from stage to stage. A hop asks the state that the step names, or opens the line against
the grammar that it names; there is none where there are suggestions, nor where the grammar would begin
after the cursor. Completing a word is a run of at most so many hops, and the answer is what the last
stage suggests (`follow_eq_run`, `complete_eq_run`).
-/

namespace ShellCompletion

/-- Where a request stands: the words and how they were read, the step it has come to, and the session. -/
structure Stage (σ : Type) where
  parse : Parse
  words : List String
  step : Step
  session : σ

def Stage.items {σ : Type} (stage : Stage σ) : List String :=
  match stage.step with
  | .suggestions items => items
  | _ => []

theorem Stage.items_of_suggestions {σ : Type} {stage : Stage σ} {items : List String}
    (settled : stage.step = .suggestions items) : stage.items = items := by
  rw [Stage.items, settled]

namespace Registry

variable {σ : Type}

/-- The line is read against `grammar` and the word at the cursor is dispatched. -/
def opening (registry : Registry σ) (grammar : Grammar) (words : List String) (cursor : Nat)
    (session : σ) : Stage σ :=
  let parse := grammar.parse words cursor
  let dispatched := registry.dispatch grammar parse words session
  { parse, words, step := dispatched.1, session := dispatched.2 }

def hop? (registry : Registry σ) (stage : Stage σ) : Option (Stage σ) :=
  match stage.step with
  | .suggestions _ => none
  | .state name =>
    let resolved := registry.resolveState name stage.parse stage.words stage.session
    some { stage with step := resolved.1, session := resolved.2 }
  | .grammar next offset =>
    if stage.parse.cursor < offset ∨ stage.words.length < offset then none
    else some <|
      registry.opening next (stage.words.drop offset) (stage.parse.cursor - offset) stage.session

/-- The stage after at most `hops` hops. -/
def run (registry : Registry σ) : Nat → Stage σ → Stage σ
  | 0, stage => stage
  | hops + 1, stage =>
    match registry.hop? stage with
    | some next => registry.run hops next
    | none => stage

variable {registry : Registry σ} {stage next : Stage σ}

/-! ### One hop -/

/-- All that a hop can do. -/
theorem hop?_eq_some_iff :
    registry.hop? stage = some next ↔
      (∃ name, stage.step = .state name ∧ next =
        { stage with
          step := (registry.resolveState name stage.parse stage.words stage.session).1
          session := (registry.resolveState name stage.parse stage.words stage.session).2 }) ∨
      ∃ grammar offset, stage.step = .grammar grammar offset ∧
        offset ≤ stage.parse.cursor ∧ offset ≤ stage.words.length ∧
        next = registry.opening grammar (stage.words.drop offset) (stage.parse.cursor - offset)
          stage.session := by
  unfold hop?
  cases stage.step with
  | suggestions items => simp
  | state name => simp [eq_comm]
  | grammar grammar offset =>
    by_cases beyond : stage.parse.cursor < offset ∨ stage.words.length < offset
    · simp only [if_pos beyond, Step.grammar.injEq]
      constructor
      · exact nofun
      · rintro (⟨name, other, -⟩ | ⟨_, _, ⟨rfl, rfl⟩, below, inside, -⟩)
        · cases other
        · omega
    · have within : offset ≤ stage.parse.cursor ∧ offset ≤ stage.words.length := by omega
      simp only [if_neg beyond, Option.some.injEq, Step.grammar.injEq, reduceCtorEq, false_and, exists_false,
        false_or]
      constructor
      · rintro rfl
        exact ⟨grammar, offset, ⟨rfl, rfl⟩, within.1, within.2, rfl⟩
      · rintro ⟨_, _, ⟨rfl, rfl⟩, -, -, rfl⟩
        rfl

theorem hop?_of_suggestions {items : List String} (settled : stage.step = .suggestions items) :
    registry.hop? stage = none := by
  rw [hop?, settled]

/-! ### Runs -/

theorem run_of_hop (hops : Nat) (hop : registry.hop? stage = some next) :
    registry.run (hops + 1) stage = registry.run hops next := by
  rw [run, hop]

theorem run_of_stop (hops : Nat) (stop : registry.hop? stage = none) :
    registry.run hops stage = stage := by
  cases hops with
  | zero => rfl
  | succ hops => rw [run, stop]

theorem run_of_suggestions (hops : Nat) {items : List String} (settled : stage.step = .suggestions items) :
    registry.run hops stage = stage :=
  run_of_stop hops (hop?_of_suggestions settled)

theorem run_keeps {Kept : Stage σ → Prop}
    (keeps : ∀ {stage next}, registry.hop? stage = some next → Kept stage → Kept next)
    (hops : Nat) (kept : Kept stage) : Kept (registry.run hops stage) := by
  induction hops generalizing stage with
  | zero => exact kept
  | succ hops ih =>
    cases hop : registry.hop? stage with
    | none => rwa [run_of_stop _ hop]
    | some next => rw [run_of_hop _ hop]; exact ih (keeps hop kept)

theorem follow_of_hop (hops : Nat) (hop : registry.hop? stage = some next) :
    registry.follow stage.parse stage.words (hops + 1) stage.step stage.session =
      registry.follow next.parse next.words hops next.step next.session := by
  rcases hop?_eq_some_iff.mp hop with ⟨name, step, rfl⟩ | ⟨grammar, offset, step, below, inside, rfl⟩
  · rw [step]
    rfl
  · rw [step, follow, if_neg (by omega)]
    rfl

theorem follow_of_stop (hops : Nat) (stop : registry.hop? stage = none) :
    registry.follow stage.parse stage.words hops stage.step stage.session =
      (stage.items, stage.session) := by
  obtain ⟨parse, words, step, session⟩ := stage
  cases step with
  | suggestions items => cases hops <;> rfl
  | state name => cases stop
  | grammar grammar offset =>
    cases hops with
    | zero => rfl
    | succ hops =>
      by_cases beyond : parse.cursor < offset ∨ words.length < offset
      · simp only [follow, if_pos beyond]
        rfl
      · simp [hop?, beyond] at stop

theorem follow_eq_run (registry : Registry σ) (hops : Nat) (stage : Stage σ) :
    registry.follow stage.parse stage.words hops stage.step stage.session =
      ((registry.run hops stage).items, (registry.run hops stage).session) := by
  induction hops generalizing stage with
  | zero =>
    -- Nothing is suggested where a state or a grammar is still to be asked.
    obtain ⟨parse, words, step, session⟩ := stage
    cases step <;> rfl
  | succ hops ih =>
    cases hop : registry.hop? stage with
    | none => rw [follow_of_stop _ hop, run_of_stop _ hop]
    | some next => rw [follow_of_hop _ hop, run_of_hop _ hop, ih]

theorem complete_eq_run (registry : Registry σ) (hops : Nat) (grammar : Grammar) (words : List String)
    (cursor : Nat) (session : σ) :
    registry.complete hops grammar words cursor session =
      let last := registry.run hops (registry.opening grammar words cursor session)
      (last.items, last.session) :=
  follow_eq_run registry hops (registry.opening grammar words cursor session)

end Registry

end ShellCompletion
