import Mathlib
import ShellCompletion.Proofs.Specification.Build

/-!
# Faults of a specification

A state is sound if it sets exactly one kind of answer, and one that can be given; a command is sound if its
tokens compile and its states are sound. A specification is loaded exactly if all commands in it are sound.
Otherwise the error is that of the first command that is not, in depth-first order (`load_exact`).
-/

namespace ShellCompletion

/-- The kinds of answer that a state sets. -/
def StateSpec.sources (spec : StateSpec) : List Source :=
  (spec.command.map Source.command).toList ++ (spec.words.map Source.words).toList ++
    (spec.function.map Source.function).toList ++ (spec.state.map Source.state).toList

/-- A state `name` can be answered in this way where these functions are known. -/
def Source.Given (functions : List String) (name : String) : Source → Prop
  | .command parts => parts ≠ []
  | .words _ => True
  | .function called => called ∈ functions
  | .state other => other ≠ name

inductive Source.Faulty (functions : List String) (name : String) : Source → StateFault → Prop
  | emptyCommand : Faulty functions name (.command []) .emptyCommand
  | unknownFunction {function : String} (unknown : function ∉ functions) :
      Faulty functions name (.function function) (.unknownFunction function)
  | refersToItself : Faulty functions name (.state name) .refersToItself

/-- A state sets exactly one kind of answer, and one that can be given. -/
def StateSpec.Sound (functions : List String) (name : String) (spec : StateSpec) : Prop :=
  ∃ source, spec.sources = [source] ∧ source.Given functions name

def StateSpec.Faulty (functions : List String) (name : String) (spec : StateSpec) (fault : StateFault) : Prop :=
  spec.sources.length ≠ 1 ∧ fault = .notOneAnswer ∨
    ∃ source, spec.sources = [source] ∧ source.Faulty functions name fault

structure CommandSpec.Sound (functions : List String) (spec : CommandSpec) : Prop where
  grammar : ∃ grammar, Grammar.compile spec.tokens = .ok grammar
  states : ∀ entry ∈ spec.states, entry.2.Sound functions entry.1

/-- The tokens of the command at `path` do not compile, or they do and a state is not sound, the first of these
in the order of names. -/
inductive CommandSpec.Faulty (functions : List String) (path : List String) (spec : CommandSpec) :
    SpecError → Prop
  | grammar {cause : TokenError} (refused : Grammar.compile spec.tokens = .error cause) :
      Faulty functions path spec (.badGrammar (pathText path) cause)
  | state {grammar : Grammar} {name : String} {state : StateSpec} {cause : StateFault}
      (compiled : Grammar.compile spec.tokens = .ok grammar) (member : (name, state) ∈ spec.states)
      (faulty : state.Faulty functions name cause)
      (first : ∀ entry ∈ spec.states, entry.1 < name → entry.2.Sound functions entry.1) :
      Faulty functions path spec (.badState (pathText path) name cause)

/-! ### One state -/

namespace StateSpec

theorem source?_eq_some_iff {spec : StateSpec} {source : Source} :
    spec.source? = some source ↔ spec.sources = [source] := by
  obtain ⟨command, words, function, state, -, -, -⟩ := spec
  cases command <;> cases words <;> cases function <;> cases state <;> simp [source?, sources]

theorem source?_eq_none_iff {spec : StateSpec} : spec.source? = none ↔ spec.sources.length ≠ 1 := by
  rw [ne_eq, List.length_eq_one_iff, Option.eq_none_iff_forall_ne_some]
  simp [source?_eq_some_iff]

end StateSpec

section

variable {ω : Type} {workshop : Workshop ω} {registry : Registry (Session ω)}

theorem Registry.function?_eq_none_iff {σ : Type} {registry : Registry σ} {name : String} :
    registry.function? name = none ↔ name ∉ registry.functionNames := by
  rw [functionNames, Names.mem_ofList, ← Table.isSome_lookup_iff, Bool.not_eq_true, Option.isSome_eq_false_iff, Option.isNone_iff_eq_none,
    function?]

namespace StateSpec

variable {spec : StateSpec} {source : Source}

theorem sound_iff_given (set : spec.sources = [source]) {functions : List String} {name : String} :
    spec.Sound functions name ↔ source.Given functions name := by
  simp [Sound, set]

theorem faulty_iff_source (set : spec.sources = [source]) {functions : List String} {name : String}
    {fault : StateFault} : spec.Faulty functions name fault ↔ source.Faulty functions name fault := by
  simp [Faulty, set]

theorem exists_resolver_iff (workshop : Workshop ω) (registry : Registry (Session ω)) (site : CacheSite) :
    (∃ resolver, spec.resolver workshop registry site = .ok resolver) ↔
      spec.Sound registry.functionNames site.state := by
  unfold resolver
  cases chosen : spec.source? with
  | none =>
    have never (source : Source) : spec.sources ≠ [source] := by
      rw [ne_eq, ← source?_eq_some_iff, chosen]
      exact nofun
    simp [Sound, never]
  | some source =>
    rw [sound_iff_given (source?_eq_some_iff.mp chosen)]
    cases source with
    | command words => cases words <;> simp [Source.Given]
    | words items => simp [Source.Given]
    | function name =>
      have unknown : registry.function? name = none ↔ _ := Registry.function?_eq_none_iff
      cases found : registry.function? name <;> simpa [found, Source.Given] using unknown
    | state name => by_cases same : name = site.state <;> simp [same, Source.Given]

theorem resolver_error_iff (workshop : Workshop ω) (registry : Registry (Session ω)) (site : CacheSite)
    {fault : StateFault} :
    spec.resolver workshop registry site = .error fault ↔
      spec.Faulty registry.functionNames site.state fault := by
  unfold resolver
  cases chosen : spec.source? with
  | none =>
    constructor
    · intro failed
      exact .inl ⟨source?_eq_none_iff.mp chosen, (Except.error.inj failed).symm⟩
    · rintro (⟨-, rfl⟩ | ⟨source, set, -⟩)
      · rfl
      · rw [source?_eq_some_iff.mpr set] at chosen
        cases chosen
  | some source =>
    rw [faulty_iff_source (source?_eq_some_iff.mp chosen)]
    constructor
    · intro failed
      cases source with
      | command parts =>
        cases parts with
        | nil =>
          obtain rfl := Except.error.inj failed
          exact .emptyCommand
        | cons => cases failed
      | words items => cases failed
      | function name =>
        simp only at failed
        split at failed
        next => cases failed
        next unknown =>
          obtain rfl := Except.error.inj failed
          exact .unknownFunction (Registry.function?_eq_none_iff.mp unknown)
      | state name =>
        simp only at failed
        split at failed
        next same =>
          obtain rfl := Except.error.inj failed
          exact same ▸ .refersToItself
        next => cases failed
    · rintro (_ | unknown | _)
      · rfl
      · simp [Registry.function?_eq_none_iff.mpr unknown]
      · simp

/-- The error of a state, when it is built for the command at `path`. -/
def fault? (workshop : Workshop ω) (registry : Registry (Session ω)) (path : List String)
    (entry : String × StateSpec) : Option SpecError :=
  match entry.2.resolver workshop registry ⟨path, entry.1⟩ with
  | .ok _ => none
  | .error fault => some (.badState (pathText path) entry.1 fault)

variable {path : List String} {entry : String × StateSpec}

theorem fault?_eq_none_iff :
    fault? workshop registry path entry = none ↔ entry.2.Sound registry.functionNames entry.1 := by
  rw [← exists_resolver_iff workshop registry ⟨path, entry.1⟩, fault?]
  split
  next resolver made => simp [made]
  next fault failed => simp [failed]

theorem fault?_eq_some_iff {error : SpecError} :
    fault? workshop registry path entry = some error ↔
      ∃ fault, entry.2.Faulty registry.functionNames entry.1 fault ∧
        error = .badState (pathText path) entry.1 fault := by
  simp only [← resolver_error_iff workshop registry ⟨path, entry.1⟩]
  rw [fault?]
  split
  next resolver made => simp [made]
  next fault failed => simp [failed, eq_comm]

end StateSpec

/-! ### The states of one command -/

variable {path : List String} {inherited : Registry (Session ω)} {states : List (String × StateSpec)}

theorem addStates_error_iff (same : inherited.functions = registry.functions) {error : SpecError} :
    addStates workshop path inherited states = .error error ↔
      states.findSome? (StateSpec.fault? workshop registry path) = some error := by
  induction states generalizing inherited with
  | nil => simp [addStates]
  | cons entry rest ih =>
    rw [addStates, List.findSome?_cons, StateSpec.fault?, entry.2.resolver_congr _ same]
    cases made : entry.2.resolver workshop registry ⟨path, entry.1⟩ with
    | ok resolver => exact ih same
    | error fault => simp

theorem exists_addStates_iff (same : inherited.functions = registry.functions) :
    (∃ own, addStates workshop path inherited states = .ok own) ↔
      states.findSome? (StateSpec.fault? workshop registry path) = none := by
  simp only [exists_ok_iff, Option.eq_none_iff_forall_ne_some, ne_eq, addStates_error_iff same]

/-! ### All commands -/

namespace CommandSpec

/-- The error of the command at `path` apart from those below it, when it is built. -/
def fault? (workshop : Workshop ω) (registry : Registry (Session ω)) (path : List String)
    (spec : CommandSpec) : Option SpecError :=
  match Grammar.compile spec.tokens with
  | .error cause => some (.badGrammar (pathText path) cause)
  | .ok _ => spec.states.findSome? (StateSpec.fault? workshop registry path)

/-- The error of the first of these nodes that has one, where `path` leads to the command they are below. -/
def firstFault? (workshop : Workshop ω) (registry : Registry (Session ω)) (path : List String)
    (nodes : List (List String × CommandSpec)) : Option SpecError :=
  nodes.findSome? fun node => node.2.fault? workshop registry (path ++ node.1)

variable {spec : CommandSpec}

theorem fault?_eq_none_iff :
    spec.fault? workshop registry path = none ↔ spec.Sound registry.functionNames := by
  unfold fault?
  cases compiled : Grammar.compile spec.tokens with
  | error cause =>
    refine iff_of_false nofun fun sound => ?_
    obtain ⟨grammar, other⟩ := sound.grammar
    rw [compiled] at other
    cases other
  | ok grammar =>
    simp only [List.findSome?_eq_none_iff, StateSpec.fault?_eq_none_iff]
    exact ⟨fun sound => ⟨⟨grammar, compiled⟩, sound⟩, fun sound => sound.states⟩

theorem fault?_eq_some_iff (h : spec.Ordered) {error : SpecError} :
    spec.fault? workshop registry path = some error ↔ spec.Faulty registry.functionNames path error := by
  unfold fault?
  cases compiled : Grammar.compile spec.tokens with
  | error cause =>
    constructor
    · intro same
      obtain rfl := Option.some.inj same
      exact .grammar compiled
    · rintro (refused | other)
      · rw [compiled] at refused
        obtain rfl := Except.error.inj refused
        rfl
      · rw [compiled] at other
        cases other
  | ok grammar =>
    have ascend := h.states_ascend
    simp only [List.findSome?_eq_some_iff, StateSpec.fault?_eq_some_iff, StateSpec.fault?_eq_none_iff]
    constructor
    · rintro ⟨before, ⟨name, state⟩, after, listed, ⟨cause, faulty, rfl⟩, sound⟩
      rw [listed] at ascend
      refine .state compiled (by simp [listed]) faulty fun entry member less => sound entry ?_
      exact (Table.mem_before_iff ascend).mpr ⟨listed ▸ member, less⟩
    · rintro (refused | @⟨-, name, state, cause, -, member, faulty, first⟩)
      · rw [compiled] at refused
        cases refused
      · obtain ⟨before, after, listed⟩ := List.append_of_mem member
        rw [listed] at ascend
        refine ⟨before, (name, state), after, listed, ⟨cause, faulty, rfl⟩, fun entry earlier => ?_⟩
        obtain ⟨among, less⟩ := (Table.mem_before_iff ascend).mp earlier
        exact first entry (listed ▸ among) less

theorem firstFault?_cons (node : List String × CommandSpec) (rest : List (List String × CommandSpec)) :
    firstFault? workshop registry path (node :: rest) =
      (node.2.fault? workshop registry (path ++ node.1)).or (firstFault? workshop registry path rest) := by
  rw [firstFault?, List.findSome?_cons]
  cases node.2.fault? workshop registry (path ++ node.1) <;> rfl

theorem firstFault?_nodesBelow_cons (name : String) (child : CommandSpec) (rest : List (String × CommandSpec)) :
    firstFault? workshop registry path (nodesBelow ((name, child) :: rest)) =
      (firstFault? workshop registry (path ++ [name]) child.nodes).or
        (firstFault? workshop registry path (nodesBelow rest)) := by
  simp [firstFault?, nodesBelow, List.findSome?_append, List.findSome?_map, Function.comp_def]

mutual

theorem build_error_iff_firstFault :
    (spec : CommandSpec) → ∀ (path : List String) (inherited : Registry (Session ω)) (error : SpecError),
      inherited.functions = registry.functions →
        (spec.build workshop path inherited = .error error ↔
          firstFault? workshop registry path spec.nodes = some error)
  | { tokens, states, subcommands }, path, inherited, error => fun same => by
    rw [build_error_iff, nodes_eq, firstFault?_cons, List.append_nil, fault?, Option.or_eq_some_iff]
    cases Grammar.compile tokens with
    | error cause => simp [eq_comm]
    | ok grammar =>
      -- The own states come first: only when all of them are built can the error come from below.
      simp only [reduceCtorEq, false_and, exists_false, false_or, Except.ok.injEq, exists_eq', true_and,
        addStates_error_iff same, ← exists_addStates_iff same]
      refine or_congr_right ⟨?_, ?_⟩
      · rintro ⟨own, added, failed⟩
        have kept := (functions_addStates added).trans same
        exact ⟨⟨own, added⟩, (buildAll_error_iff_firstFault subcommands _ _ _ kept).mp failed⟩
      · rintro ⟨⟨own, added⟩, failed⟩
        have kept := (functions_addStates added).trans same
        exact ⟨own, added, (buildAll_error_iff_firstFault subcommands _ _ _ kept).mpr failed⟩

theorem buildAll_error_iff_firstFault :
    (commands : List (String × CommandSpec)) → ∀ (path : List String) (inherited : Registry (Session ω))
      (error : SpecError), inherited.functions = registry.functions →
        (buildAll workshop path inherited commands = .error error ↔
          firstFault? workshop registry path (nodesBelow commands) = some error)
  | [], _, _, _ => by simp [buildAll, nodesBelow, firstFault?]
  | (name, spec) :: rest, path, inherited, error => fun same => by
    rw [buildAll_cons_error_iff, firstFault?_nodesBelow_cons, Option.or_eq_some_iff, exists_ok_iff,
      Option.eq_none_iff_forall_ne_some]
    simp only [ne_eq, build_error_iff_firstFault spec _ _ _ same, buildAll_error_iff_firstFault rest _ _ _ same]

end

end CommandSpec

/-! ### Loading -/

namespace CommandTree

variable {commands : Specification} {loaded : Except Error (CommandTree (Session ω))}

/-- Loading a specification fails with the fault of the first command that has one. -/
theorem Loads.error_iff (loads : Loads workshop registry commands loaded) {error : Error} :
    loaded = .error error ↔
      ∃ fault, CommandSpec.firstFault? workshop registry [] commands.nodes = some fault ∧ error = .spec fault := by
  rw [loads.eq, ofSpecification, mapError_error]
  simp only [CommandSpec.buildAll_error_iff_firstFault commands _ _ _ rfl, Specification.nodes, eq_comm]

/-- A specification is loaded exactly if all its commands are sound, at any depth. Otherwise the error is what is wrong
with the first command that is not, in depth-first order with the names of siblings ascending. -/
theorem load_exact (loads : Loads workshop registry commands loaded) :
    let functions := registry.functionNames
    (commands.Ordered ∧ commands.nodes.Pairwise (·.1 < ·.1)) ∧
    ((∃ tree, loaded = .ok tree) ↔ ∀ path spec, commands.command? path = some spec → spec.Sound functions) ∧
    ∀ error, loaded = .error error ↔
      ∃ before path spec after fault, commands.nodes = before ++ (path, spec) :: after ∧
        (∀ node ∈ before, node.2.Sound functions) ∧ spec.Faulty functions path fault ∧ error = .spec fault := by
  intro functions
  have ordered := loads.ordered
  refine ⟨⟨ordered, Specification.nodes_ascend ordered⟩, ?_, fun error => ?_⟩
  · rw [exists_ok_iff]
    simp only [ne_eq, loads.error_iff]
    constructor
    · intro succeeds path spec found
      have member := (Specification.mem_nodes_iff ordered).mpr found
      have none : CommandSpec.firstFault? workshop registry [] commands.nodes = none := by
        refine Option.eq_none_iff_forall_ne_some.mpr fun fault first => ?_
        exact succeeds (.spec fault) ⟨fault, first, rfl⟩
      exact CommandSpec.fault?_eq_none_iff.mp (List.findSome?_eq_none_iff.mp none (path, spec) member)
    · rintro sound error ⟨fault, first, rfl⟩
      obtain ⟨⟨path, spec⟩, member, faulty⟩ := List.exists_of_findSome?_eq_some first
      have fine := sound path spec ((Specification.mem_nodes_iff ordered).mp member)
      rw [CommandSpec.fault?_eq_none_iff.mpr fine] at faulty
      cases faulty
  · rw [loads.error_iff]
    simp only [CommandSpec.firstFault?, List.findSome?_eq_some_iff, List.nil_append, CommandSpec.fault?_eq_none_iff]
    have each {before after : List (List String × CommandSpec)} {path : List String} {spec : CommandSpec}
        {fault : SpecError} (listed : commands.nodes = before ++ (path, spec) :: after) :
        spec.fault? workshop registry path = some fault ↔ spec.Faulty functions path fault := by
      have member : (path, spec) ∈ commands.nodes := by simp [listed]
      exact CommandSpec.fault?_eq_some_iff (ordered.command? ((Specification.mem_nodes_iff ordered).mp member))
    constructor
    · rintro ⟨fault, ⟨before, ⟨path, spec⟩, after, listed, faulty, sound⟩, rfl⟩
      exact ⟨before, path, spec, after, fault, listed, sound, (each listed).mp faulty, rfl⟩
    · rintro ⟨before, path, spec, after, fault, listed, sound, faulty, rfl⟩
      exact ⟨fault, ⟨before, (path, spec), after, listed, (each listed).mpr faulty, sound⟩, rfl⟩

end CommandTree

end

set_option maxRecDepth 2048 in
/-- Three commands are at fault. That of `a` comes before the one below it and before its later sibling. -/
theorem CommandTree.load_exact_sibling :
    let text := "[commands.b]\ntokens=['(']\n[commands.a.states.s]\n[commands.a.subcommands.c]\ntokens=[':(']"
    let commands : Specification :=
      [("a", { states := [("s", {})], subcommands := [("c", { tokens := [":("] })] }), ("b", { tokens := ["("] })]
    let workshop : Workshop Unit := { run := fun _ _ _ _ => return none }
    Specification.read? text = some commands ∧
      ofText workshop {} text = .error (.spec (.badState "a" "s" .notOneAnswer)) := by
  intro text commands workshop
  have read : Specification.read? text = some commands := by
    simp only [text, commands]
    cbv
  obtain ⟨-, -, fails⟩ := load_exact (Loads.text read : Loads workshop {} commands _)
  refine ⟨read, (fails _).mpr ⟨[], ["a"], _, _, _, rfl, List.forall_mem_nil _, ?_, rfl⟩⟩
  have compiled : Grammar.compile [] = .ok {} := rfl
  refine .state compiled (List.mem_singleton_self _) (.inl ⟨by decide, rfl⟩) fun entry member less => ?_
  obtain rfl := List.mem_singleton.mp member
  exact absurd less (String.lt_irrefl _)

end ShellCompletion
