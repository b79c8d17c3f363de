import ShellCompletion.Proofs.Grammar.Chain
import ShellCompletion.Proofs.Specification.Commands
import ShellCompletion.Specification.Load

/-!
# Building commands

What building a command does is stated once, for the command itself (`build_ok_iff`, `build_error_iff`), for
its states (`resolver_ok_iff`, `addStates_cons_ok_iff`) and for the commands below it (`lookup_buildAll`). Functions are never added
on the way down (`functions_addStates`), so every state finds those of the caller's registry. What is loaded from a text is
what is built from the specification that is read from it (`Loads.eq`).
-/

namespace ShellCompletion

theorem bind_error {ε α β : Type} {x : Except ε α} {f : α → Except ε β} {e : ε} :
    (x >>= f) = .error e ↔ x = .error e ∨ ∃ a, x = .ok a ∧ f a = .error e := by
  cases x with
  | error e => simp [bind, Except.bind]
  | ok a => simp [bind, Except.bind]

theorem exists_ok_iff {ε α : Type} {x : Except ε α} : (∃ a, x = .ok a) ↔ ∀ e, x ≠ .error e := by
  cases x <;> simp

theorem mapError_ok {ε ε' α : Type} {x : Except ε α} {f : ε → ε'} {a : α} :
    x.mapError f = .ok a ↔ x = .ok a := by
  cases x with
  | ok b =>
    show (Except.ok b : Except ε' α) = .ok a ↔ _
    simp
  | error cause => exact iff_of_false (fun same => by cases same) (fun same => by cases same)

theorem mapError_error {ε ε' α : Type} {x : Except ε α} {f : ε → ε'} {e : ε'} :
    x.mapError f = .error e ↔ ∃ cause, x = .error cause ∧ f cause = e := by
  cases x with
  | ok b =>
    refine iff_of_false (fun same => by cases same) ?_
    rintro ⟨cause, same, -⟩
    cases same
  | error cause =>
    show Except.error (f cause) = .error e ↔ _
    simp

section

variable {ω : Type} {workshop : Workshop ω} {path : List String} {registry inherited own : Registry (Session ω)}

/-! ### States -/

/-- A state looks only at the functions of a registry. -/
theorem StateSpec.resolver_congr (spec : StateSpec) (site : CacheSite) {known other : Registry (Session ω)}
    (same : known.functions = other.functions) :
    spec.resolver workshop known site = spec.resolver workshop other site := by
  unfold StateSpec.resolver Registry.function?
  rw [same]

/-- The resolver that a state at `site` gets for what its answer comes from. -/
inductive StateSpec.Makes (workshop : Workshop ω) (known : Registry (Session ω)) (site : CacheSite)
    (spec : StateSpec) : Source → Resolver (Session ω) → Prop
  | command (program : String) (arguments : List String) :
      Makes workshop known site spec (.command (program :: arguments))
        (spec.commandResolver workshop site program arguments)
  | words (items : List String) : Makes workshop known site spec (.words items) (.words items spec.policy)
  | function {name resolver} (registered : known.function? name = some resolver) :
      Makes workshop known site spec (.function name) resolver
  | state {name} (other : name ≠ site.state) : Makes workshop known site spec (.state name) (.alias name)

theorem StateSpec.resolver_ok_iff {spec : StateSpec} {known : Registry (Session ω)} {site : CacheSite}
    {resolver : Resolver (Session ω)} :
    spec.resolver workshop known site = .ok resolver ↔
      ∃ source, spec.source? = some source ∧ spec.Makes workshop known site source resolver := by
  unfold StateSpec.resolver
  constructor
  · intro made
    cases chosen : spec.source? with
    | none => rw [chosen] at made; cases made
    | some source =>
      rw [chosen] at made
      refine ⟨source, rfl, ?_⟩
      cases source with
      | command parts =>
        cases parts with
        | nil => cases made
        | cons program arguments => exact Except.ok.inj made ▸ .command program arguments
      | words items => exact Except.ok.inj made ▸ .words items
      | function name =>
        cases known : known.function? name with
        | none => simp only [known] at made; cases made
        | some function =>
          simp only [known] at made
          exact Except.ok.inj made ▸ .function known
      | state name =>
        by_cases own : name = site.state
        · simp only [if_pos own] at made
          cases made
        · simp only [if_neg own] at made
          exact Except.ok.inj made ▸ .state own
  · rintro ⟨source, chosen, made⟩
    rw [chosen]
    cases made with
    | command | words => rfl
    | function registered => simp only [registered]
    | state other => exact if_neg other

theorem addStates_cons_ok_iff {name : String} {state : StateSpec} {rest : List (String × StateSpec)} :
    addStates workshop path inherited ((name, state) :: rest) = .ok own ↔
      ∃ resolver, state.resolver workshop inherited ⟨path, name⟩ = .ok resolver ∧
        addStates workshop path (inherited.addState name resolver) rest = .ok own := by
  rw [addStates]
  split
  next resolver made => simp [made]
  next fault failed => simp [failed]

theorem functions_addStates {states : List (String × StateSpec)}
    (added : addStates workshop path inherited states = .ok own) : own.functions = inherited.functions := by
  induction states generalizing inherited with
  | nil =>
    obtain rfl := Except.ok.inj added
    rfl
  | cons entry rest ih =>
    obtain ⟨resolver, -, later⟩ := addStates_cons_ok_iff.mp added
    rw [ih later]
    rfl

/-! ### Commands -/

/-- `node` is what is built from `spec`; `own` are the resolvers that it hands down. -/
structure CommandSpec.Makes (workshop : Workshop ω) (path : List String) (own : Registry (Session ω))
    (spec : CommandSpec) (node : CommandNode (Session ω)) : Prop where
  grammar : Grammar.compile spec.tokens = .ok node.grammar
  subcommands : buildAll workshop path own spec.subcommands = .ok node.subcommands
  registry : node.registry = withSubcommands own (Table.names spec.subcommands)

theorem build_ok_iff {spec : CommandSpec} {node : CommandNode (Session ω)} :
    spec.build workshop path inherited = .ok node ↔
      ∃ own, addStates workshop path inherited spec.states = .ok own ∧ spec.Makes workshop path own node := by
  obtain ⟨tokens, states, subcommands⟩ := spec
  obtain ⟨grammar, registry, nodes⟩ := node
  simp only [CommandSpec.build, bind_ok, mapError_ok]
  constructor
  · rintro ⟨grammar, compiled, own, added, nodes, below, same⟩
    cases same
    exact ⟨own, added, compiled, below, rfl⟩
  · rintro ⟨own, added, compiled, below, rfl⟩
    exact ⟨grammar, compiled, own, added, nodes, below, rfl⟩

theorem build_error_iff {spec : CommandSpec} {error : SpecError} :
    spec.build workshop path inherited = .error error ↔
      (∃ cause, Grammar.compile spec.tokens = .error cause ∧ error = .badGrammar (pathText path) cause) ∨
      (∃ grammar, Grammar.compile spec.tokens = .ok grammar) ∧
        (addStates workshop path inherited spec.states = .error error ∨
          ∃ own, addStates workshop path inherited spec.states = .ok own ∧
            buildAll workshop path own spec.subcommands = .error error) := by
  obtain ⟨tokens, states, subcommands⟩ := spec
  simp only [CommandSpec.build, bind_error, mapError_ok, mapError_error, pure, Except.pure, reduceCtorEq, and_false,
    exists_false, or_false]
  simp only [exists_and_right, eq_comm (a := error)]

theorem buildAll_cons_ok_iff {name : String} {spec : CommandSpec} {rest : List (String × CommandSpec)}
    {tree : CommandTree (Session ω)} :
    buildAll workshop path inherited ((name, spec) :: rest) = .ok tree ↔
      ∃ node, spec.build workshop (path ++ [name]) inherited = .ok node ∧
        ∃ others, buildAll workshop path inherited rest = .ok others ∧ tree = (name, node) :: others := by
  simp only [buildAll, bind_ok, pure, Except.pure, Except.ok.injEq, eq_comm (a := tree)]

theorem buildAll_cons_error_iff {name : String} {spec : CommandSpec} {rest : List (String × CommandSpec)}
    {error : SpecError} :
    buildAll workshop path inherited ((name, spec) :: rest) = .error error ↔
      spec.build workshop (path ++ [name]) inherited = .error error ∨
        (∃ node, spec.build workshop (path ++ [name]) inherited = .ok node) ∧
          buildAll workshop path inherited rest = .error error := by
  simp only [buildAll, bind_error, pure, Except.pure, reduceCtorEq, and_false, exists_false, or_false, exists_and_right]

/-- The same names lead to commands and to what is built from them. -/
theorem lookup_buildAll {commands : Specification} {tree : CommandTree (Session ω)}
    (built : buildAll workshop path inherited commands = .ok tree) (name : String) :
    Option.Rel (fun spec node => spec.build workshop (path ++ [name]) inherited = .ok node)
      (commands.lookup name) (tree.lookup name) := by
  induction commands generalizing tree with
  | nil =>
    obtain rfl := Except.ok.inj built
    exact .none
  | cons entry rest ih =>
    obtain ⟨head, spec⟩ := entry
    obtain ⟨node, made, others, later, rfl⟩ := buildAll_cons_ok_iff.mp built
    by_cases same : name = head
    · subst same
      simpa using made
    · simpa [List.lookup_cons, beq_false_of_ne same] using ih later

end

/-! ### Loading -/

namespace CommandTree

section

variable {ω : Type} {workshop : Workshop ω} {registry : Registry (Session ω)} {commands : Specification}
  {loaded : Except Error (CommandTree (Session ω))}

theorem ofText_of_read {text : String} (read : Specification.read? text = some commands) :
    ofText workshop registry text = ofSpecification workshop registry commands := by
  rw [ofText, read]

/-- This is loaded from the specification, whose names ascend, or from a text that it is read from. -/
inductive Loads (workshop : Workshop ω) (registry : Registry (Session ω)) (commands : Specification) :
    Except Error (CommandTree (Session ω)) → Prop
  | specification (ordered : commands.Ordered) :
      Loads workshop registry commands (ofSpecification workshop registry commands)
  | text {text : String} (read : Specification.read? text = some commands) :
      Loads workshop registry commands (ofText workshop registry text)

namespace Loads

theorem ordered (loads : Loads workshop registry commands loaded) : commands.Ordered := by
  cases loads with
  | specification ordered => exact ordered
  | text read => exact Specification.read?_ordered read

theorem eq (loads : Loads workshop registry commands loaded) :
    loaded = ofSpecification workshop registry commands := by
  cases loads with
  | specification => rfl
  | text read => exact ofText_of_read read

theorem of_ofText {text : String} {tree : CommandTree (Session ω)} (read : Specification.read? text = some commands)
    (loads : ofText workshop registry text = .ok tree) : Loads workshop registry commands (.ok tree) :=
  loads ▸ .text read

theorem built {tree : CommandTree (Session ω)} (loads : Loads workshop registry commands (.ok tree)) :
    buildAll workshop [] registry commands = .ok tree :=
  mapError_ok.mp loads.eq.symm

end Loads

end

end CommandTree

end ShellCompletion
