import Mathlib.Data.List.Chain
import ShellCompletion.Proofs.Dispatch.Hop

/-!
# What a request costs

Counting the calls of resolvers changes no answer (`dispatch_counted`, `hop?_counted`). Each stage of a
request calls one resolver at most, and there are no more stages than hops and one. So however states and
grammars lead to each other, a request ends, and calls one resolver more than it may hop, at most
(`request_bounded`).
-/

namespace ShellCompletion

variable {σ : Type}

/-- Counts the calls of a resolver beside the session. -/
def Resolver.counted (resolver : Resolver σ) : Resolver (Nat × σ) :=
  fun request (calls, session) =>
    let (answer, after) := resolver request session
    (answer, (calls + 1, after))

def Registry.counted (registry : Registry σ) : Registry (Nat × σ) where
  states := registry.states.map fun (name, resolver) => (name, resolver.counted)
  functions := registry.functions.map fun (name, resolver) => (name, resolver.counted)

/-- The stage after so many calls. -/
def Stage.counting (stage : Stage σ) (calls : Nat) : Stage (Nat × σ) :=
  { stage with session := (calls, stage.session) }

namespace Registry

/-- The stages from `first` to `last`, each one hop after the one before it. -/
structure Trail (registry : Registry σ) (first last : Stage σ) (trail : List (Stage σ)) : Prop where
  first : trail.head? = some first
  last : trail.getLast? = some last
  steps : trail.IsChain fun here next => registry.hop? here = some next

/-- From `first` on, which it reaches in `session`, the request takes at most `hops` hops; the last stage
gives its answer. All in all it calls no more resolvers than it has stages. -/
def Bounded (registry : Registry σ) (hops : Nat) (session : σ) (first : Stage σ)
    (request : {τ : Type} → Registry τ → StateM τ (List String)) : Prop :=
  ∃ trail last calls, registry.Trail first last trail ∧
    request registry session = (last.items, last.session) ∧
    request registry.counted (0, session) = (last.items, (calls, last.session)) ∧
    calls ≤ trail.length ∧ trail.length ≤ hops + 1

variable {registry : Registry σ}

/-! ### One stage -/

theorem lookup_counted (table : Table (Resolver σ)) (name : String) :
    (table.map fun (name, resolver) => (name, resolver.counted)).lookup name =
      (table.lookup name).map Resolver.counted := by
  induction table with
  | nil => rfl
  | cons entry rest ih =>
    obtain ⟨head, resolver⟩ := entry
    cases same : name == head <;> simp [List.lookup_cons, same, ih]

theorem ask_counted (resolver : Option (Resolver σ)) (state : String) (parse : Parse)
    (words : List String) (calls : Nat) (session : σ) :
    let asked := ask resolver state parse words session
    ∃ made ≤ 1, ask (resolver.map Resolver.counted) state parse words (calls, session) =
      (asked.1, (calls + made, asked.2)) := by
  cases resolver with
  | none => exact ⟨0, Nat.zero_le 1, rfl⟩
  | some resolver => exact ⟨1, Nat.le_refl 1, rfl⟩

theorem resolveState_counted (registry : Registry σ) (state : String) (parse : Parse)
    (words : List String) (calls : Nat) (session : σ) :
    let resolved := registry.resolveState state parse words session
    ∃ made ≤ 1, registry.counted.resolveState state parse words (calls, session) =
      (resolved.1, (calls + made, resolved.2)) := by
  have known : registry.counted.state? state = (registry.state? state).map Resolver.counted :=
    lookup_counted registry.states state
  rw [resolveState, resolveState, known]
  exact ask_counted (registry.state? state) state parse words calls session

theorem dispatch_counted (registry : Registry σ) (grammar : Grammar) (parse : Parse)
    (words : List String) (calls : Nat) (session : σ) :
    let dispatched := registry.dispatch grammar parse words session
    ∃ made ≤ 1, registry.counted.dispatch grammar parse words (calls, session) =
      (dispatched.1, (calls + made, dispatched.2)) := by
  unfold dispatch
  by_cases wanted : wantsFlags parse = true
  · simp only [if_pos wanted]
    exact ⟨0, Nat.zero_le 1, rfl⟩
  · simp only [if_neg wanted]
    cases parse.action with
    | literal => exact ⟨0, Nat.zero_le 1, rfl⟩
    | state name => exact ⟨0, Nat.zero_le 1, rfl⟩
    | nothing => exact ⟨0, Nat.zero_le 1, rfl⟩
    | function name =>
      have known : registry.counted.function? name = (registry.function? name).map Resolver.counted :=
        lookup_counted registry.functions name
      simp only [known]
      exact ask_counted (registry.function? name) name parse words calls session

theorem opening_counted (registry : Registry σ) (grammar : Grammar) (words : List String) (cursor : Nat)
    (calls : Nat) (session : σ) :
    ∃ made ≤ 1, registry.counted.opening grammar words cursor (calls, session) =
      (registry.opening grammar words cursor session).counting (calls + made) := by
  obtain ⟨made, one, dispatched⟩ :=
    dispatch_counted registry grammar (grammar.parse words cursor) words calls session
  refine ⟨made, one, ?_⟩
  simp only [opening, dispatched]
  rfl

/-- A hop is the same whether or not calls are counted, and makes one call at most. -/
theorem hop?_counted (registry : Registry σ) (stage : Stage σ) (calls : Nat) :
    ∃ made ≤ 1, registry.counted.hop? (stage.counting calls) =
      (registry.hop? stage).map (·.counting (calls + made)) := by
  obtain ⟨parse, words, step, session⟩ := stage
  cases step with
  | suggestions items => exact ⟨0, Nat.zero_le 1, rfl⟩
  | state name =>
    obtain ⟨made, one, resolved⟩ := resolveState_counted registry name parse words calls session
    refine ⟨made, one, ?_⟩
    simp only [hop?, Stage.counting, resolved]
    rfl
  | grammar next offset =>
    by_cases beyond : parse.cursor < offset ∨ words.length < offset
    · refine ⟨0, Nat.zero_le 1, ?_⟩
      simp [hop?, Stage.counting, beyond]
    · obtain ⟨made, one, opened⟩ := opening_counted registry next (words.drop offset)
        (parse.cursor - offset) calls session
      refine ⟨made, one, ?_⟩
      simp [hop?, Stage.counting, beyond, opened]

/-! ### A whole request -/

theorem Trail.single (stage : Stage σ) : registry.Trail stage stage [stage] :=
  ⟨rfl, rfl, .singleton stage⟩

theorem Trail.extend {first next last : Stage σ} {trail : List (Stage σ)}
    (later : registry.Trail next last trail) (hop : registry.hop? first = some next) :
    registry.Trail first last (first :: trail) where
  first := rfl
  last := by rw [List.getLast?_cons, later.last, Option.getD_some]
  steps := by
    refine List.isChain_cons.mpr ⟨fun other head => ?_, later.steps⟩
    obtain rfl : next = other := Option.some.inj (later.first.symm.trans head)
    exact hop

/-- A run within a budget of hops leaves a trail that fits the budget, and calls one resolver for each
hop at most. -/
theorem exists_trail (registry : Registry σ) (hops : Nat) (first : Stage σ) (calls : Nat) :
    ∃ trail made, registry.Trail first (registry.run hops first) trail ∧
      registry.counted.run hops (first.counting calls) =
        (registry.run hops first).counting (calls + made) ∧
      made + 1 ≤ trail.length ∧ trail.length ≤ hops + 1 := by
  induction hops generalizing first calls with
  | zero => exact ⟨[first], 0, .single first, rfl, Nat.le_refl 1, Nat.le_refl 1⟩
  | succ hops ih =>
    obtain ⟨made, one, counted⟩ := hop?_counted registry first calls
    cases hop : registry.hop? first with
    | none =>
      have stop : registry.counted.hop? (first.counting calls) = none := by rw [counted, hop, Option.map_none]
      rw [run_of_stop _ hop, run_of_stop _ stop]
      exact ⟨[first], 0, .single first, rfl, Nat.le_refl 1, by simp⟩
    | some next =>
      have hopToo : registry.counted.hop? (first.counting calls) = some (next.counting (calls + made)) := by
        rw [counted, hop, Option.map_some]
      obtain ⟨trail, more, walked, same, enough, few⟩ := ih next (calls + made)
      rw [run_of_hop _ hop, run_of_hop _ hopToo]
      refine ⟨first :: trail, made + more, walked.extend hop, ?_, ?_, ?_⟩
      · rw [same, Nat.add_assoc]
      · rw [List.length_cons]
        omega
      · rw [List.length_cons]
        omega

theorem follow_counted (registry : Registry σ) (hops : Nat) (first : Stage σ) (calls : Nat) :
    ∃ trail last made, registry.Trail first last trail ∧
      registry.follow first.parse first.words hops first.step first.session = (last.items, last.session) ∧
      registry.counted.follow first.parse first.words hops first.step (calls, first.session) =
        (last.items, (calls + made, last.session)) ∧
      made + 1 ≤ trail.length ∧ trail.length ≤ hops + 1 := by
  obtain ⟨trail, made, walked, same, enough, few⟩ := exists_trail registry hops first calls
  refine ⟨trail, _, made, walked, follow_eq_run registry hops first, ?_, enough, few⟩
  have counted := follow_eq_run registry.counted hops (first.counting calls)
  rw [same] at counted
  exact counted

theorem suggest_bounded (registry : Registry σ) (hops : Nat) (grammar : Grammar) (parse : Parse)
    (words : List String) (session : σ) :
    let dispatched := registry.dispatch grammar parse words session
    registry.Bounded hops session { parse, words, step := dispatched.1, session := dispatched.2 }
      fun registry => registry.suggest hops grammar parse words := by
  intro dispatched
  obtain ⟨made, one, counted⟩ := dispatch_counted registry grammar parse words 0 session
  obtain ⟨trail, last, more, walked, plain, count, enough, few⟩ := follow_counted registry hops
    { parse, words, step := dispatched.1, session := dispatched.2 } (0 + made)
  refine ⟨trail, last, 0 + made + more, walked, plain, ?_, by omega, few⟩
  show registry.counted.follow parse words hops
    (registry.counted.dispatch grammar parse words (0, session)).1
    (registry.counted.dispatch grammar parse words (0, session)).2 = _
  rw [counted]
  exact count

/-- Whatever the registry holds, a request passes at most one stage more than it may hop, and calls at
most one resolver in each of them. -/
theorem request_bounded (registry : Registry σ) (hops : Nat) (grammar : Grammar) (words : List String)
    (session : σ) :
    (∀ parse : Parse,
      let dispatched := registry.dispatch grammar parse words session
      registry.Bounded hops session { parse, words, step := dispatched.1, session := dispatched.2 }
        fun registry => registry.suggest hops grammar parse words) ∧
    ∀ cursor, registry.Bounded hops session (registry.opening grammar words cursor session)
      fun registry => registry.complete hops grammar words cursor :=
  ⟨fun parse => suggest_bounded registry hops grammar parse words session,
    fun cursor => suggest_bounded registry hops grammar (grammar.parse words cursor) words session⟩

/-- A function that hands the line to its own grammar is called until the hops are used up. -/
example :
    let grammar : Grammar := { slots := [⟨⟨[.function "again"], none⟩, true⟩] }
    let registry : Registry Unit := { functions := [("again", fun _ => return .grammar grammar 0)] }
    registry.counted.complete 3 grammar ["tool"] 1 (0, ()) = ([], (4, ())) := rfl

end Registry

end ShellCompletion
