import ShellCompletion.Proofs.Specification.Fault

/-!
# Inheritance of states

A command resolves a state by its definition in the nearest command on the way to it, itself included, and
otherwise by what the caller has. A command with subcommands resolves one more state, which lists their names
and which it does not hand down (`states_inherited`).
-/

namespace ShellCompletion

namespace Specification

variable {ω : Type}

/-- From the depth `least` on, no command on the way to `path` defines the state. -/
def UndefinedFrom (commands : Specification) (path : List String) (name : String) (least : Nat) : Prop :=
  ∀ lower spec, lower <+: path → least ≤ lower.length → commands.command? lower = some spec →
    spec.states.lookup name = none

/-- The command at `origin` is the last one on the way to `path` that defines the state. -/
structure Nearest (commands : Specification) (path : List String) (name : String) (origin : List String)
    (state : StateSpec) : Prop where
  above : origin <+: path
  defined : ∃ spec, commands.command? origin = some spec ∧ spec.states.lookup name = some state
  last : commands.UndefinedFrom path name (origin.length + 1)

/-- What the command at `path` hands down for a state. -/
inductive HandsDown (workshop : Workshop ω) (registry : Registry (Session ω)) (commands : Specification)
    (path : List String) (name : String) : Option (Resolver (Session ω)) → Prop
  | nearest {origin state resolver} (nearest : commands.Nearest path name origin state)
      (made : state.resolver workshop registry ⟨origin, name⟩ = .ok resolver) :
      HandsDown workshop registry commands path name (some resolver)
  | caller (undefined : commands.UndefinedFrom path name 0) :
      HandsDown workshop registry commands path name (registry.state? name)

/-- How the command `spec` at `path` resolves a state. -/
inductive Resolves (workshop : Workshop ω) (registry : Registry (Session ω)) (commands : Specification)
    (path : List String) (spec : CommandSpec) : String → Option (Resolver (Session ω)) → Prop
  | listed (below : spec.subcommands ≠ []) :
      Resolves workshop registry commands path spec subcommandsState (some (.words (Table.names spec.subcommands)))
  | handedDown {name answer} (other : name = subcommandsState → spec.subcommands = [])
      (given : HandsDown workshop registry commands path name answer) :
      Resolves workshop registry commands path spec name answer

/-- The commands on the way to `path` define the same states in both specifications, and the one at `path` has the
same names of subcommands. -/
structure AgreeAt (commands other : Specification) (path : List String) : Prop where
  states : ∀ origin, origin <+: path →
    (commands.command? origin).map (·.states) = (other.command? origin).map (·.states)
  subcommands : (commands.command? path).map (Table.names ·.subcommands) =
    (other.command? path).map (Table.names ·.subcommands)

/-! ### One answer -/

section

variable {commands other : Specification} {path origin : List String} {name : String} {state : StateSpec}
  {workshop : Workshop ω} {registry : Registry (Session ω)} {answer : Option (Resolver (Session ω))}

theorem Nearest.length_lt {least : Nat} (h : commands.Nearest path name origin state)
    (undefined : commands.UndefinedFrom path name least) : origin.length < least := by
  obtain ⟨spec, found, defines⟩ := h.defined
  refine Nat.not_le.mp fun deep => ?_
  rw [undefined origin spec h.above deep found] at defines
  cases defines

theorem Nearest.unique {origin' : List String} {state' : StateSpec} (h : commands.Nearest path name origin state)
    (h' : commands.Nearest path name origin' state') : origin = origin' ∧ state = state' := by
  have le : origin.length ≤ origin'.length := Nat.le_of_lt_succ (h.length_lt h'.last)
  have ge : origin'.length ≤ origin.length := Nat.le_of_lt_succ (h'.length_lt h.last)
  obtain rfl := (List.prefix_of_prefix_length_le h.above h'.above le).eq_of_length (Nat.le_antisymm le ge)
  obtain ⟨spec, found, defines⟩ := h.defined
  obtain ⟨spec', found', defines'⟩ := h'.defined
  obtain rfl := Option.some.inj (found.symm.trans found')
  exact ⟨rfl, Option.some.inj (defines.symm.trans defines')⟩

theorem HandsDown.unique {answer' : Option (Resolver (Session ω))}
    (h : HandsDown workshop registry commands path name answer)
    (h' : HandsDown workshop registry commands path name answer') : answer = answer' := by
  cases h with
  | nearest nearest made =>
    cases h' with
    | nearest nearest' made' =>
      obtain ⟨rfl, rfl⟩ := nearest.unique nearest'
      rw [Except.ok.inj (made.symm.trans made')]
    | caller undefined => exact absurd (nearest.length_lt undefined) (Nat.not_lt_zero _)
  | caller undefined =>
    cases h' with
    | nearest nearest' => exact absurd (nearest'.length_lt undefined) (Nat.not_lt_zero _)
    | caller => rfl

theorem Resolves.unique {spec : CommandSpec} {answer' : Option (Resolver (Session ω))}
    (h : Resolves workshop registry commands path spec name answer)
    (h' : Resolves workshop registry commands path spec name answer') : answer = answer' := by
  cases h with
  | listed below =>
    cases h' with
    | listed => rfl
    | handedDown other => exact absurd (other rfl) below
  | handedDown other given =>
    cases h' with
    | listed below => exact absurd (other rfl) below
    | handedDown _ given' => exact given.unique given'

/-! ### The way to the next command -/

variable {spec : CommandSpec} {next : String}

theorem UndefinedFrom.concat {least : Nat} (h : commands.UndefinedFrom path name least)
    (found : commands.command? (path ++ [next]) = some spec) (undefined : spec.states.lookup name = none) :
    commands.UndefinedFrom (path ++ [next]) name least := by
  intro lower lowerSpec between deep known
  rcases List.prefix_concat_iff.mp between with rfl | earlier
  · obtain rfl := Option.some.inj (found.symm.trans known)
    exact undefined
  · exact h lower lowerSpec earlier deep known

theorem Nearest.here (found : commands.command? path = some spec) (defines : spec.states.lookup name = some state) :
    commands.Nearest path name path state where
  above := List.prefix_refl path
  defined := ⟨spec, found, defines⟩
  last _ _ between deeper _ := absurd between.length_le (Nat.not_le.mpr deeper)

theorem Nearest.concat (h : commands.Nearest path name origin state)
    (found : commands.command? (path ++ [next]) = some spec) (undefined : spec.states.lookup name = none) :
    commands.Nearest (path ++ [next]) name origin state where
  above := h.above.trans (List.prefix_append path [next])
  defined := h.defined
  last := h.last.concat found undefined

theorem HandsDown.concat (h : HandsDown workshop registry commands path name answer)
    (found : commands.command? (path ++ [next]) = some spec) (undefined : spec.states.lookup name = none) :
    HandsDown workshop registry commands (path ++ [next]) name answer := by
  cases h with
  | nearest nearest made => exact .nearest (nearest.concat found undefined) made
  | caller none => exact .caller (none.concat found undefined)

/-! ### Specifications that agree -/

theorem AgreeAt.symm (h : AgreeAt commands other path) : AgreeAt other commands path where
  states origin between := (h.states origin between).symm
  subcommands := h.subcommands.symm

theorem AgreeAt.states_eq (h : AgreeAt commands other path) (between : origin <+: path)
    (found : commands.command? origin = some spec) :
    ∃ same, other.command? origin = some same ∧ same.states = spec.states := by
  have agree := h.states origin between
  rw [found, Option.map_some, eq_comm, Option.map_eq_some_iff] at agree
  exact agree

theorem UndefinedFrom.congr {least : Nat} (h : commands.UndefinedFrom path name least)
    (agree : AgreeAt commands other path) : other.UndefinedFrom path name least := by
  intro lower spec between deep found
  obtain ⟨same, known, states⟩ := agree.symm.states_eq between found
  rw [← states]
  exact h lower same between deep known

theorem Nearest.congr (h : commands.Nearest path name origin state) (agree : AgreeAt commands other path) :
    other.Nearest path name origin state where
  above := h.above
  defined := by
    obtain ⟨spec, found, defines⟩ := h.defined
    obtain ⟨same, known, states⟩ := agree.states_eq h.above found
    exact ⟨same, known, states ▸ defines⟩
  last := h.last.congr agree

theorem HandsDown.congr (h : HandsDown workshop registry commands path name answer)
    (agree : AgreeAt commands other path) : HandsDown workshop registry other path name answer := by
  cases h with
  | nearest nearest made => exact .nearest (nearest.congr agree) made
  | caller undefined => exact .caller (undefined.congr agree)

theorem Resolves.congr {same : CommandSpec} (h : Resolves workshop registry commands path spec name answer)
    (agree : AgreeAt commands other path) (names : Table.names spec.subcommands = Table.names same.subcommands) :
    Resolves workshop registry other path same name answer := by
  have empty := Table.eq_nil_iff_of_names names
  cases h with
  | listed below =>
    rw [names]
    exact .listed (mt empty.mpr below)
  | handedDown other given => exact .handedDown (fun listing => empty.mp (other listing)) (given.congr agree)

end

end Specification

section

variable {ω : Type} {workshop : Workshop ω} {registry inherited own : Registry (Session ω)} {path : List String}

/-! ### The states of one command -/

namespace Registry

variable {σ : Type} {registry : Registry σ} {resolver : Resolver σ}

theorem state?_addState (name : String) : (registry.addState name resolver).state? name = some resolver :=
  Table.lookup_insert ..

theorem state?_addState_other {name other : String} (h : other ≠ name) :
    (registry.addState name resolver).state? other = registry.state? other :=
  Table.lookup_insert_other h ..

end Registry

/-- A state that the command defines has the resolver of its definition, any other state the one before. -/
theorem state?_addStates {states : List (String × StateSpec)} (ascending : Table.Ascending states)
    (added : addStates workshop path inherited states = .ok own) (name : String) :
    (∀ state, states.lookup name = some state → ∃ resolver,
      state.resolver workshop inherited ⟨path, name⟩ = .ok resolver ∧ own.state? name = some resolver) ∧
    (states.lookup name = none → own.state? name = inherited.state? name) := by
  induction states generalizing inherited with
  | nil =>
    obtain rfl := Except.ok.inj added
    exact ⟨nofun, fun _ => rfl⟩
  | cons entry rest ih =>
    obtain ⟨head, first⟩ := entry
    obtain ⟨resolver, made, later⟩ := addStates_cons_ok_iff.mp added
    obtain ⟨above, ascending⟩ := List.pairwise_cons.mp ascending
    obtain ⟨defined, kept⟩ := ih ascending later
    by_cases same : name = head
    · -- The names ascend, so the first definition of a name is not replaced.
      subst same
      have absent : rest.lookup name = none := by
        rw [← Option.not_isSome_iff_eq_none, Table.isSome_lookup_iff]
        exact fun member => String.lt_irrefl name (above name member)
      simp only [List.lookup_cons_self, Option.some.injEq]
      refine ⟨?_, nofun⟩
      rintro state rfl
      exact ⟨resolver, made, by rw [kept absent, Registry.state?_addState]⟩
    · rw [List.lookup_cons, beq_false_of_ne same]
      rw [Registry.state?_addState_other same] at kept
      exact ⟨defined, kept⟩

theorem withSubcommands_cons {σ : Type} (registry : Registry σ) (first : String) (others : List String) :
    withSubcommands registry (first :: others) = registry.addState subcommandsState (.words (first :: others)) :=
  rfl

theorem functions_withSubcommands {σ : Type} (registry : Registry σ) (names : List String) :
    (withSubcommands registry names).functions = registry.functions := by
  cases names <;> rfl

/-! ### All the way down -/

/-- The resolvers that the command at `path` hands down. -/
structure Inherited (workshop : Workshop ω) (registry : Registry (Session ω)) (commands : Specification)
    (path : List String) (own : Registry (Session ω)) : Prop where
  functions : own.functions = registry.functions
  states : ∀ name, commands.HandsDown workshop registry path name (own.state? name)

variable {commands : Specification}

theorem Inherited.top : Inherited workshop registry commands [] registry where
  functions := rfl
  states name := by
    refine .caller fun lower spec between _ found => ?_
    obtain rfl := List.prefix_nil.mp between
    cases found

theorem Inherited.concat {name : String} {spec : CommandSpec} (h : Inherited workshop registry commands path inherited)
    (found : commands.command? (path ++ [name]) = some spec) (ordered : spec.Ordered)
    (added : addStates workshop (path ++ [name]) inherited spec.states = .ok own) :
    Inherited workshop registry commands (path ++ [name]) own where
  functions := (functions_addStates added).trans h.functions
  states state := by
    obtain ⟨defined, kept⟩ := state?_addStates ordered.states_ascend added state
    cases here : spec.states.lookup state with
    | some definition =>
      obtain ⟨resolver, made, registered⟩ := defined definition here
      -- Only functions matter for a definition, and these are the caller's at any depth.
      rw [definition.resolver_congr _ h.functions] at made
      rw [registered]
      exact .nearest (.here found here) made
    | none =>
      rw [kept here]
      exact (h.states state).concat found here

/-- The command at `path`, what is built from it, and the resolvers that it hands down. -/
def Reached (workshop : Workshop ω) (registry : Registry (Session ω)) (commands : Specification)
    (path : List String) (spec : CommandSpec) (node : CommandNode (Session ω)) : Prop :=
  commands.command? path = some spec ∧
    ∃ own, Inherited workshop registry commands path own ∧ spec.Makes workshop path own node

theorem Reached.enter (ordered : commands.Ordered) (h : Inherited workshop registry commands path inherited)
    {subcommands : Specification} {tree : CommandTree (Session ω)}
    (built : buildAll workshop path inherited subcommands = .ok tree) {name : String} {spec : CommandSpec}
    (known : subcommands.lookup name = some spec) (found : commands.command? (path ++ [name]) = some spec) :
    ∃ node, tree.lookup name = some node ∧ Reached workshop registry commands (path ++ [name]) spec node := by
  have made := lookup_buildAll built name
  rw [known] at made
  cases reached : tree.lookup name with
  | none => rw [reached] at made; cases made
  | some node =>
    rw [reached, Option.rel_some_some] at made
    obtain ⟨own, added, makes⟩ := build_ok_iff.mp made
    exact ⟨node, rfl, found, own, h.concat found (ordered.command? found) added, makes⟩

theorem Reached.below (ordered : commands.Ordered) {spec lower : CommandSpec} {node : CommandNode (Session ω)}
    {rest : List String} (h : Reached workshop registry commands path spec node)
    (down : spec.below? rest = some lower) :
    ∃ reached, node.below? rest = some reached ∧ Reached workshop registry commands (path ++ rest) lower reached := by
  induction rest generalizing path spec node with
  | nil =>
    obtain rfl := Option.some.inj down
    exact ⟨node, rfl, by rwa [List.append_nil]⟩
  | cons name rest ih =>
    obtain ⟨child, known, down⟩ := Option.bind_eq_some_iff.mp down
    -- The commands below are built with what this one hands down, not with what it resolves itself.
    obtain ⟨found, own, handed, makes⟩ := h
    obtain ⟨next, entered, h⟩ :=
      Reached.enter ordered handed makes.subcommands known ((commands.command?_concat found name).trans known)
    obtain ⟨reached, lowest, h⟩ := ih h down
    refine ⟨reached, ?_, by rwa [List.append_assoc] at h⟩
    rw [CommandNode.below?, entered, Option.bind_some, lowest]

theorem Reached.resolves {spec : CommandSpec} {node : CommandNode (Session ω)}
    (h : Reached workshop registry commands path spec node) (name : String) :
    commands.Resolves workshop registry path spec name (node.registry.state? name) := by
  obtain ⟨-, own, handed, makes⟩ := h
  rw [makes.registry]
  cases names : Table.names spec.subcommands with
  | nil => exact .handedDown (fun _ => List.map_eq_nil_iff.mp names) (handed.states name)
  | cons first others =>
    have below : spec.subcommands ≠ [] := fun none => by rw [none] at names; cases names
    rw [withSubcommands_cons]
    by_cases same : name = subcommandsState
    · subst same
      rw [Registry.state?_addState, ← names]
      exact .listed below
    · rw [Registry.state?_addState_other same]
      exact .handedDown (fun listing => absurd listing same) (handed.states name)

theorem Reached.function? {spec : CommandSpec} {node : CommandNode (Session ω)}
    (h : Reached workshop registry commands path spec node) (name : String) :
    node.registry.function? name = registry.function? name := by
  obtain ⟨-, own, handed, makes⟩ := h
  rw [makes.registry, Registry.function?, functions_withSubcommands, handed.functions, Registry.function?]

end

/-! ### Loading -/

namespace CommandTree

variable {ω : Type} {workshop : Workshop ω} {registry : Registry (Session ω)} {commands : Specification}
  {tree : CommandTree (Session ω)}

theorem exists_reached (loads : Loads workshop registry commands (.ok tree)) {path : List String} {spec : CommandSpec}
    (found : commands.command? path = some spec) :
    ∃ node, tree.node? path = some node ∧ Reached workshop registry commands path spec node := by
  have ordered := loads.ordered
  cases path with
  | nil => cases found
  | cons name rest =>
    obtain ⟨top, known, down⟩ := Option.bind_eq_some_iff.mp found
    have entry : commands.command? ([] ++ [name]) = some top := by
      rw [List.nil_append, Specification.command?, known]
      rfl
    obtain ⟨node, entered, h⟩ := Reached.enter ordered .top loads.built known entry
    obtain ⟨reached, lowest, h⟩ := h.below ordered down
    exact ⟨reached, by rw [node?, entered, Option.bind_some, lowest], h⟩

/-- Every command resolves a state by its own list of subcommands, by the nearest definition on the way to it, or
as the caller does, and its states are those that it resolves. What other commands define has no part in it. -/
theorem states_inherited (loads : Loads workshop registry commands (.ok tree)) {path : List String}
    {spec : CommandSpec} (found : commands.command? path = some spec) :
    ∃ node names, tree.node? path = some node ∧ tree.states? path = some names ∧
      (∀ name answer, node.registry.state? name = answer ↔
        commands.Resolves workshop registry path spec name answer) ∧
      Names.Ascending names ∧ (∀ name, name ∈ names ↔ (node.registry.state? name).isSome) ∧
      ∀ other otherTree, Loads workshop registry other (.ok otherTree) → commands.AgreeAt other path →
        ∃ same, otherTree.node? path = some same ∧
          ∀ name, same.registry.state? name = node.registry.state? name := by
  obtain ⟨node, reached, h⟩ := exists_reached loads found
  refine ⟨node, node.registry.stateNames, reached, ?_, fun name answer => ⟨?_, fun resolves => ?_⟩,
    Names.ascending_ofList _, fun name => Names.mem_ofList.trans Table.isSome_lookup_iff.symm, ?_⟩
  · rw [states?, reached]
    rfl
  · rintro rfl
    exact h.resolves name
  · exact (h.resolves name).unique resolves
  · intro other otherTree otherLoads agree
    have names := agree.subcommands
    rw [found, Option.map_some, eq_comm, Option.map_eq_some_iff] at names
    obtain ⟨otherSpec, otherFound, names⟩ := names
    obtain ⟨same, otherReached, h'⟩ := exists_reached otherLoads otherFound
    exact ⟨same, otherReached, fun name => (h'.resolves name).unique ((h.resolves name).congr agree names.symm)⟩

set_option maxRecDepth 2048 in
/-- The definition in `a` stands before the caller's; the list of its subcommands is not handed down to `b`. -/
theorem states_inherited_below :
    let text := "[commands.a.states.s]\nwords=['x']\n[commands.a.subcommands.b]"
    let commands : Specification := [("a", { states := [("s", { words := some ["x"] })], subcommands := [("b", {})] })]
    let workshop : Workshop Unit := { run := fun _ _ _ _ => return none }
    let registry : Registry (Session Unit) := { states := [("s", .words ["y"])] }
    Specification.read? text = some commands ∧
      ∃ tree node, ofText workshop registry text = .ok tree ∧ tree.node? ["a", "b"] = some node ∧
        node.registry.state? "s" = some (.words ["x"]) ∧ node.registry.state? "subcommands" = none := by
  intro text commands workshop registry
  have read : Specification.read? text = some commands := by
    simp only [text, commands]
    cbv
  obtain ⟨tree, loads⟩ : ∃ tree, ofText workshop registry text = .ok tree := by
    rw [ofText_of_read read]
    exact ⟨_, rfl⟩
  have found : commands.command? ["a", "b"] = some {} := rfl
  obtain ⟨node, -, reached, -, resolves, -⟩ := states_inherited (Loads.of_ofText read loads) found
  refine ⟨read, tree, node, loads, reached, (resolves _ _).mpr ?_, (resolves _ _).mpr ?_⟩
  · have nearest : commands.Nearest ["a", "b"] "s" ["a"] { words := some ["x"] } := {
      above := by decide
      defined := ⟨_, rfl, rfl⟩
      last := by
        intro lower spec between deeper known
        obtain rfl := between.eq_of_length (Nat.le_antisymm between.length_le deeper)
        obtain rfl := Option.some.inj (found.symm.trans known)
        rfl }
    exact .handedDown (fun same => absurd same (by decide)) (.nearest nearest rfl)
  · refine .handedDown (fun _ => rfl) (.caller fun lower spec between _ known => ?_)
    simp only [List.prefix_cons_iff, List.prefix_nil] at between
    rcases between with rfl | ⟨_, rfl, rfl | ⟨_, rfl, rfl⟩⟩
    · cases known
    all_goals
      obtain rfl := Option.some.inj known
      rfl

end CommandTree

end ShellCompletion
