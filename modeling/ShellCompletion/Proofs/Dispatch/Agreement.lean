import ShellCompletion.Engine

/-!
# Agreement

Two actions are in lockstep under a relation of sessions if from related sessions they give the same result and
leave related sessions. Only some resolvers are asked while a line is completed, and with certain requests
(`Registry.Asks`). Registries whose resolvers are in lockstep there give the same suggestions (`suggest_lockstep`),
and engines with selectors that agree give the same answers to a sequence of requests (`serve_lockstep`).
-/

namespace ShellCompletion

variable {σ τ α β ρ : Type}

def Lockstep (related : σ → τ → Prop) (one : StateM σ α) (other : StateM τ α) : Prop :=
  ∀ session session', related session session' →
    (one session).1 = (other session').1 ∧ related (one session).2 (other session').2

/-- Both have the same error, or both have results that are related. -/
inductive Alike {ε : Type} (related : α → β → Prop) : Except ε α → Except ε β → Prop
  | error (e : ε) : Alike related (.error e) (.error e)
  | ok {a : α} {b : β} (results : related a b) : Alike related (.ok a) (.ok b)

/-! ### Who is asked -/

namespace Registry

/-- The word at the cursor asks the resolver first. -/
inductive Opens (registry : Registry σ) (parse : Parse) (words : List String) : Resolver σ → Request → Prop
  | state {name resolver} (unflagged : wantsFlags parse = false) (action : parse.action = .state name)
      (known : registry.state? name = some resolver) :
      Opens registry parse words resolver { state := name, typed := parse.current, parse, words }
  | function {name resolver} (unflagged : wantsFlags parse = false) (action : parse.action = .function name)
      (known : registry.function? name = some resolver) :
      Opens registry parse words resolver { state := name, typed := parse.current, parse, words }

/-- Some resolver answers with a state or a grammar in some session, and so the next one is asked. -/
inductive Asks (registry : Registry σ) (parse : Parse) (words : List String) : Resolver σ → Request → Prop
  | opening {resolver request} (opens : registry.Opens parse words resolver request) :
      Asks registry parse words resolver request
  | state {resolver request session name next} (asked : Asks registry parse words resolver request)
      (answer : (resolver request session).1 = .state name) (known : registry.state? name = some next) :
      Asks registry parse words next { request with state := name }
  | grammar {resolver request session grammar offset next further} (asked : Asks registry parse words resolver request)
      (answer : (resolver request session).1 = .grammar grammar offset) (before : offset ≤ request.parse.cursor)
      (inside : offset ≤ request.words.length)
      (opens : registry.Opens (grammar.parse (request.words.drop offset) (request.parse.cursor - offset))
        (request.words.drop offset) next further) :
      Asks registry parse words next further

end Registry

/-- The resolver is asked the request while the selection completes the line. -/
def Selection.Asks (selection : Selection σ) (words : List String) (cursor : Nat) : Resolver σ → Request → Prop :=
  let offset := min selection.offset (min cursor (words.length - 1))
  selection.registry.Asks (selection.grammar.parse (words.drop offset) (cursor - offset)) (words.drop offset)

/-! ### What agrees -/

def Resolver.Agree (asked : Request → Prop) (related : σ → τ → Prop) (one : Resolver σ) (other : Resolver τ) : Prop :=
  ∀ request, asked request → Lockstep related (one request) (other request)

/-- The same names are known to both, and by each name resolvers that agree on what they are asked. -/
structure Registry.Agree (asked : Resolver σ → Request → Prop) (related : σ → τ → Prop) (one : Registry σ)
    (other : Registry τ) : Prop where
  states : ∀ name, Option.Rel (fun resolver => Resolver.Agree (asked resolver) related resolver)
    (one.state? name) (other.state? name)
  functions : ∀ name, Option.Rel (fun resolver => Resolver.Agree (asked resolver) related resolver)
    (one.function? name) (other.function? name)

structure Selection.Agree (asked : Resolver σ → Request → Prop) (related : σ → τ → Prop) (one : Selection σ)
    (other : Selection τ) : Prop where
  grammar : one.grammar = other.grammar
  offset : one.offset = other.offset
  registry : one.registry.Agree asked related other.registry

/-- A request that fails leaves the session as it is. -/
def outcome : Except Error (StateM σ α) → StateM σ (Except Error α)
  | .ok action => do return .ok (← action)
  | .error error => return .error error

/-- Answers requests one after the other. -/
def serve (answer : ρ → Except Error (StateM σ α)) : List ρ → StateM σ (List (Except Error α))
  | [] => return []
  | request :: rest => do
    let first ← outcome (answer request)
    return first :: (← serve answer rest)

variable {asked : Resolver σ → Request → Prop} {related : σ → τ → Prop}

namespace Lockstep

theorem pure (result : α) : Lockstep related (pure result) (pure result) := fun _ _ sessions => ⟨rfl, sessions⟩

theorem bind {one : StateM σ α} {other : StateM τ α} {next : α → StateM σ β} {next' : α → StateM τ β}
    (first : Lockstep related one other)
    (later : ∀ session, Lockstep related (next (one session).1) (next' (one session).1)) :
    Lockstep related (one >>= next) (other >>= next') := by
  intro session session' sessions
  obtain ⟨result, sessions⟩ := first session session' sessions
  show (next (one session).1 (one session).2).1 = (next' (other session').1 (other session').2).1 ∧
    related (next (one session).1 (one session).2).2 (next' (other session').1 (other session').2).2
  rw [← result]
  exact later _ _ _ sessions

end Lockstep

/-! ### Suggestions -/

/-- Whoever is asked next is among those that are asked. -/
def Step.Leads (registry : Registry σ) (asked : Resolver σ → Request → Prop) (parse : Parse) (words : List String) :
    Step → Prop
  | .suggestions _ => True
  | .state name => ∀ resolver, registry.state? name = some resolver →
      asked resolver { state := name, typed := parse.current, parse, words }
  | .grammar next offset => offset ≤ parse.cursor → offset ≤ words.length → ∀ resolver request,
      registry.Opens (next.parse (words.drop offset) (parse.cursor - offset)) (words.drop offset) resolver request →
        asked resolver request

namespace Registry

variable {one : Registry σ} {other : Registry τ} {resolver : Option (Resolver σ)} {resolver' : Option (Resolver τ)}

theorem ask_lockstep
    (known : Option.Rel (fun resolver => Resolver.Agree (asked resolver) related resolver) resolver resolver')
    {state : String} {parse : Parse} {words : List String}
    (asks : ∀ answers, resolver = some answers → asked answers { state, typed := parse.current, parse, words }) :
    Lockstep related (ask resolver state parse words) (ask resolver' state parse words) := by
  cases known with
  | none => exact .pure _
  | some agree => exact (agree _ (asks _ rfl)).bind fun _ => .pure _

theorem leads_ask {start parse : Parse} {line words : List String} {state : String}
    (asks : ∀ answers, resolver = some answers →
      one.Asks start line answers { state, typed := parse.current, parse, words }) (session : σ) :
    (ask resolver state parse words session).1.Leads one (one.Asks start line) parse words := by
  cases resolver with
  | none => trivial
  | some answers =>
    have asked := asks answers rfl
    show ((answers _ session).1.step parse.current).Leads one (one.Asks start line) parse words
    cases answer : (answers { state, typed := parse.current, parse, words } session).1 with
    | candidates => trivial
    | state name => exact fun next known => .state asked answer known
    | grammar grammar offset => exact fun before inside next further opens => .grammar asked answer before inside opens

theorem leads_dispatch {start parse : Parse} {line words : List String} {grammar : Grammar}
    (opens : ∀ resolver request, one.Opens parse words resolver request → one.Asks start line resolver request)
    (session : σ) : (one.dispatch grammar parse words session).1.Leads one (one.Asks start line) parse words := by
  unfold dispatch
  split
  next => trivial
  next flagged =>
    have unflagged := Bool.eq_false_iff.mpr flagged
    cases action : parse.action with
    | literal => trivial
    | state name => exact fun resolver known => opens _ _ (.state unflagged action known)
    | function name => exact leads_ask (fun resolver known => opens _ _ (.function unflagged action known)) session
    | nothing => trivial

theorem dispatch_lockstep (registries : one.Agree asked related other) (grammar : Grammar) {parse : Parse}
    {words : List String}
    (opens : ∀ resolver request, one.Opens parse words resolver request → asked resolver request) :
    Lockstep related (one.dispatch grammar parse words) (other.dispatch grammar parse words) := by
  unfold dispatch
  split
  next => exact .pure _
  next flagged =>
    have unflagged := Bool.eq_false_iff.mpr flagged
    cases action : parse.action with
    | literal => exact .pure _
    | state name => exact .pure _
    | function name =>
      exact ask_lockstep (registries.functions name) fun _ known => opens _ _ (.function unflagged action known)
    | nothing => exact .pure _

theorem follow_lockstep {start parse : Parse} {line words : List String}
    (registries : one.Agree asked related other)
    (asks : ∀ resolver request, one.Asks start line resolver request → asked resolver request) (hops : Nat)
    {step : Step} (leads : step.Leads one (one.Asks start line) parse words) :
    Lockstep related (one.follow parse words hops step) (other.follow parse words hops step) := by
  induction hops generalizing parse words step with
  | zero => cases step <;> exact .pure _
  | succ hops ih =>
    cases step with
    | suggestions items => exact .pure _
    | state name =>
      have first := ask_lockstep (registries.states name) fun answers known => asks _ _ (leads answers known)
      exact first.bind fun session => ih (leads_ask leads session)
    | grammar next offset =>
      unfold follow
      split
      next => exact .pure _
      next inside =>
        rw [not_or, Nat.not_lt, Nat.not_lt] at inside
        have opens := leads inside.1 inside.2
        have first := dispatch_lockstep registries next fun resolver request known => asks _ _ (opens _ _ known)
        exact first.bind fun session => ih (leads_dispatch opens session)

theorem suggest_lockstep {parse : Parse} {words : List String} (registries : one.Agree asked related other)
    (asks : ∀ resolver request, one.Asks parse words resolver request → asked resolver request) (hops : Nat)
    (grammar : Grammar) :
    Lockstep related (one.suggest hops grammar parse words) (other.suggest hops grammar parse words) := by
  have first := dispatch_lockstep registries grammar fun resolver request opens => asks _ _ (.opening opens)
  exact first.bind fun session =>
    follow_lockstep registries asks hops (leads_dispatch (fun _ _ opens => .opening opens) session)

end Registry

/-! ### Sequences of requests -/

namespace Engine

variable {one : Engine σ} {other : Engine τ} {words : List String} {cursor : Nat}

theorem explain_alike (hops : one.hops = other.hops)
    (select : Alike (Selection.Agree asked related) (one.select words cursor) (other.select words cursor))
    (asks : ∀ selection, one.select words cursor = .ok selection → ∀ resolver request,
      selection.Asks words cursor resolver request → asked resolver request) :
    Alike (Lockstep related) (one.explain words cursor) (other.explain words cursor) := by
  unfold explain
  split
  next => exact .ok (.pure _)
  next =>
    generalize one.select words cursor = selected, other.select words cursor = selected' at select asks
    cases select with
    | error e => exact .error e
    | ok selections =>
      have asks := asks _ rfl
      refine .ok ?_
      show Lockstep related (explainSelection one _ words cursor) (explainSelection other _ words cursor)
      unfold explainSelection
      unfold Selection.Asks at asks
      rw [selections.grammar, selections.offset] at asks
      rw [selections.grammar, selections.offset, hops]
      exact (Registry.suggest_lockstep selections.registry asks _ _).bind fun _ => .pure _

theorem complete_alike (hops : one.hops = other.hops)
    (select : Alike (Selection.Agree asked related) (one.select words cursor) (other.select words cursor))
    (asks : ∀ selection, one.select words cursor = .ok selection → ∀ resolver request,
      selection.Asks words cursor resolver request → asked resolver request) :
    Alike (Lockstep related) (one.complete words cursor) (other.complete words cursor) := by
  have explained := explain_alike hops select asks
  unfold complete
  generalize one.explain words cursor = explanation, other.explain words cursor = explanation' at explained
  cases explained with
  | error e => exact .error e
  | ok explanations => exact .ok (explanations.bind fun _ => .pure _)

end Engine

theorem serve_cons {answer : ρ → Except Error (StateM σ α)} {request : ρ} {action : StateM σ α} {first : α}
    {session after : σ} (answered : answer request = .ok action) (runs : action session = (first, after))
    (rest : List ρ) : (serve answer (request :: rest) session).1 = .ok first :: (serve answer rest after).1 := by
  have served : (serve answer (request :: rest) session).1 =
      (outcome (answer request) session).1 :: (serve answer rest (outcome (answer request) session).2).1 := rfl
  have here : outcome (answer request) session = (.ok first, after) := by
    rw [answered]
    exact congrArg (fun result => (Except.ok result.1, result.2)) runs
  rw [served, here]

theorem outcome_lockstep {answer : Except Error (StateM σ α)} {answer' : Except Error (StateM τ α)}
    (alike : Alike (Lockstep related) answer answer') : Lockstep related (outcome answer) (outcome answer') := by
  cases alike with
  | error e => exact .pure _
  | ok actions => exact actions.bind fun _ => .pure _

theorem serve_lockstep {answer : ρ → Except Error (StateM σ α)} {answer' : ρ → Except Error (StateM τ α)}
    {requests : List ρ} (alike : ∀ request ∈ requests, Alike (Lockstep related) (answer request) (answer' request)) :
    Lockstep related (serve answer requests) (serve answer' requests) := by
  induction requests with
  | nil => exact .pure _
  | cons request rest ih =>
    obtain ⟨here, later⟩ := List.forall_mem_cons.mp alike
    exact (outcome_lockstep here).bind fun _ => (ih later).bind fun _ => .pure _

end ShellCompletion
