import ShellCompletion.Proofs.Resolver.Cache
import ShellCompletion.Proofs.Specification.Agreement
import ShellCompletion.Proofs.Specification.Reachable
import ShellCompletion.Proofs.Specification.Timeless
import ShellCompletion.Resolver.Files

/-!
# Lifetimes of outputs

Where the output of a command depends on nothing but what the command is given, it does not matter how long it is kept
as long as the command does not change what other resolvers look at. It answers from its cache what it would answer if
it were run (`commandResolver_steady`), because a key holds all that the command is given and a cache belongs to one
command. So two trees that differ in lifetimes have resolvers that agree (`Reached.agree`), and give the same answers
to a sequence of requests (`serve_timeless`). But a command that leaves files behind leaves none if it is not run, and
`files` shows which are there (`not_serve_timeless_of_files`).
-/

namespace ShellCompletion

variable {ω α : Type}

/-- What the program prints is fixed by its arguments and its environment, wherever it is run. -/
def Runner.Steady (run : Runner ω) (program : String) (arguments : List String) : Prop :=
  ∀ environment limit world other,
    (run program arguments environment limit world).1 = (run program arguments environment limit other).1

/-- In the environment the program leaves alone what `view` shows of the outside. -/
def Runner.Spares (view : ω → α) (run : Runner ω) (program : String) (arguments : List String)
    (environment : List (String × String)) : Prop :=
  ∀ limit world, view (run program arguments environment limit world).2 = view world

namespace Session

/-- The sessions look the same, up to the caches of commands. -/
structure SameView (view : ω → α) (one other : Session ω) : Prop where
  outside : view one.outside = view other.outside
  caches : ∀ site, site.command = [] → one.cache site = other.cache site

end Session

/-- For the request the resolver sees of the outside only what `view` shows, and of the caches only those that belong
to no command. The other caches it leaves as they are. If `view` is constant, it does not look outside; if `view` shows
everything, it may look anywhere. -/
structure Resolver.Apart (view : ω → α) (resolver : Resolver (Session ω)) (request : Request) : Prop where
  agrees : Lockstep (Session.SameView view) (resolver request) (resolver request)
  caches : ∀ session site, site.command ≠ [] → (resolver request session).2.cache site = session.cache site

/-- All that a command is told of a request. -/
def CacheKey.environment (key : CacheKey) : List (String × String) := [
  ("COMPLINE_STATE", key.state),
  ("COMPLINE_PARTIAL", key.typed),
  ("COMPLINE_LINE", " ".intercalate key.words)]

theorem environment_cacheKey (request : Request) : request.cacheKey.environment = request.environment := rfl

/-- What the command of a state answers if it is run in the world. -/
def StateSpec.output (spec : StateSpec) (run : Runner ω) (timeout : Nat) (program : String)
    (arguments : List String) (key : CacheKey) (world : ω) : Answer :=
  .candidates
    (outputLines ((run program arguments key.environment (spec.timeout.getD timeout) world).1.getD "")) spec.policy

/-- The state that belongs to the cache is answered by a command. -/
structure Specification.Runs (commands : Specification) (site : CacheSite) (state : StateSpec) (program : String)
    (arguments : List String) : Prop where
  defined : ∃ spec, commands.command? site.command = some spec ∧ spec.states.lookup site.state = some state
  source : state.source? = some (.command (program :: arguments))

/-- All external commands of the specification are steady. -/
def Specification.Steady (run : Runner ω) (commands : Specification) : Prop :=
  ∀ site state program arguments, commands.Runs site state program arguments → run.Steady program arguments

/-- Resolvers of the caller's see nothing but what `view` shows when they are asked, and commands leave that alone. -/
structure Specification.Undisturbed (view : ω → α) (workshop : Workshop ω) (registry : Registry (Session ω))
    (commands : Specification) (asked : Resolver (Session ω) → Request → Prop) : Prop where
  caller : ∀ resolver request, registry.Registered resolver → asked resolver request → resolver.Apart view request
  commands : ∀ site state program arguments request, commands.Runs site state program arguments →
    asked (state.commandResolver workshop site program arguments) request →
      workshop.run.Spares view program arguments request.environment

/-- The caches of commands hold what the commands answer. -/
def Session.Sound (run : Runner ω) (timeout : Nat) (commands : Specification) (session : Session ω) : Prop :=
  ∀ site state program arguments, commands.Runs site state program arguments →
    ∀ key entry, (session.cache site).find? key = some entry →
      ∀ world, entry.answer = state.output run timeout program arguments key world

structure Session.Twins (view : ω → α) (run : Runner ω) (timeout : Nat) (commands : Specification)
    (one other : Session ω) : Prop where
  same : one.SameView view other
  one_sound : one.Sound run timeout commands
  other_sound : other.Sound run timeout commands

section

variable {view : ω → α} {run : Runner ω} {timeout : Nat} {commands : Specification}

namespace Session.SameView

variable {one other third : Session ω}

theorem refl (session : Session ω) : session.SameView view session := ⟨rfl, fun _ _ => rfl⟩

theorem symm (h : one.SameView view other) : other.SameView view one :=
  ⟨h.outside.symm, fun site outer => (h.caches site outer).symm⟩

theorem trans (h : one.SameView view other) (h' : other.SameView view third) : one.SameView view third :=
  ⟨h.outside.trans h'.outside, fun site outer => (h.caches site outer).trans (h'.caches site outer)⟩

theorem setCache {site : CacheSite} (inner : site.command ≠ []) (cache : Cache) (session : Session ω) :
    (Session.setCache site cache session).SameView view session := by
  refine ⟨rfl, fun other outer => Session.cache_setCache_other ?_ cache session⟩
  rintro rfl
  exact inner outer

end Session.SameView

namespace Specification.Runs

variable {site : CacheSite} {state state' : StateSpec} {program program' : String} {arguments arguments' : List String}

theorem inner (h : commands.Runs site state program arguments) : site.command ≠ [] := by
  obtain ⟨spec, found, -⟩ := h.defined
  intro none
  rw [none] at found
  cases found

/-- A cache belongs to one command. -/
theorem unique (h : commands.Runs site state program arguments) (h' : commands.Runs site state' program' arguments') :
    state = state' ∧ program = program' ∧ arguments = arguments' := by
  obtain ⟨spec, found, defines⟩ := h.defined
  obtain ⟨spec', found', defines'⟩ := h'.defined
  obtain rfl := Option.some.inj (found.symm.trans found')
  obtain rfl := Option.some.inj (defines.symm.trans defines')
  have same := Option.some.inj (h.source.symm.trans h'.source)
  obtain ⟨rfl, rfl⟩ := List.cons.inj (Source.command.inj same)
  exact ⟨rfl, rfl, rfl⟩

end Specification.Runs

theorem Specification.Steady.timeless (steady : commands.Steady run) : commands.timeless.Steady run := by
  intro site state program arguments runs
  obtain ⟨spec, found, defines⟩ := runs.defined
  rw [command?_timeless, Option.map_eq_some_iff] at found
  obtain ⟨timed, found, rfl⟩ := found
  rw [CommandSpec.lookup_states_timeless, Option.map_eq_some_iff] at defines
  obtain ⟨definition, defines, rfl⟩ := defines
  exact steady site definition program arguments ⟨⟨timed, found, defines⟩, runs.source⟩

/-! ### Commands -/

section

variable {site : CacheSite} {state : StateSpec} {program : String} {arguments : List String}

/-- The command of a state without a cache. -/
def StateSpec.plainResolver (state : StateSpec) (run : Runner ω) (timeout : Nat) (program : String)
    (arguments : List String) : Resolver (Session ω) :=
  (Resolver.command run {
    program, arguments, timeout := state.timeout.getD timeout, policy := state.policy }).outside

theorem plainResolver_steady (steady : run.Steady program arguments) (state : StateSpec) (timeout : Nat)
    {request : Request} (spares : run.Spares view program arguments request.environment) (session : Session ω)
    (world : ω) :
    let asked := state.plainResolver run timeout program arguments request session
    asked.1 = state.output run timeout program arguments request.cacheKey world ∧
      asked.2.SameView view session ∧ ∀ site, asked.2.cache site = session.cache site := by
  refine ⟨?_, ⟨spares .., fun _ _ => rfl⟩, fun _ => rfl⟩
  rw [StateSpec.output, environment_cacheKey, steady _ _ world session.outside]
  rfl

theorem Session.Sound.of_caches {session other : Session ω} (sound : session.Sound run timeout commands)
    (same : ∀ site, site.command ≠ [] → other.cache site = session.cache site) :
    other.Sound run timeout commands := by
  intro site state program arguments runs
  rw [same site runs.inner]
  exact sound site state program arguments runs

theorem Session.Sound.keep {session : Session ω} (sound : session.Sound run timeout commands)
    (runs : commands.Runs site state program arguments) {key : CacheKey} {answer : Answer}
    (absent : (session.cache site).find? key = none)
    (answers : ∀ world, answer = state.output run timeout program arguments key world) :
    (Session.setCache site ((session.cache site).add key answer) session).Sound run timeout commands := by
  intro other state' program' arguments' runs' key' entry found world
  by_cases here : other = site
  · subst here
    obtain ⟨rfl, rfl, rfl⟩ := runs.unique runs'
    have either := Cache.answer_find?_add absent answer key'
    rw [Session.cache_setCache] at found
    rw [found, Option.map_some, eq_comm, Option.or_eq_some_iff] at either
    rcases either with known | ⟨-, added⟩
    · obtain ⟨old, known, same⟩ := Option.map_eq_some_iff.mp known
      rw [← same]
      exact sound other state program arguments runs key' old known world
    · obtain ⟨⟨rfl, -⟩, same⟩ := Option.ite_none_right_eq_some.mp added
      rw [← Option.some.inj same]
      exact answers world
  · rw [Session.cache_setCache_other here] at found
    exact sound other state' program' arguments' runs' key' entry found world

/-- A command answers the same whether it is run or its output is kept, and caches stay sound. -/
theorem commandResolver_steady (steady : run.Steady program arguments)
    (runs : commands.Runs site state.timeless program arguments) (lifetime : Nat) {session : Session ω}
    (sound : session.Sound run timeout commands) {request : Request}
    (spares : run.Spares view program arguments request.environment) (world : ω) :
    let asked := state.commandResolver { run, settings := { timeout, lifetime } } site program arguments request session
    asked.1 = state.output run timeout program arguments request.cacheKey world ∧
      asked.2.SameView view session ∧ asked.2.Sound run timeout commands := by
  intro asked
  have plain := plainResolver_steady steady state timeout spares session
  have made : asked = Resolver.cached (Session.slot site) (state.lifetime.getD lifetime)
      (state.plainResolver run timeout program arguments) request session := rfl
  rw [made, Resolver.cached]
  by_cases zero : state.lifetime.getD lifetime = 0
  · rw [if_pos zero]
    obtain ⟨answer, same, caches⟩ := plain world
    exact ⟨answer, same, sound.of_caches fun site _ => caches site⟩
  · rw [if_neg zero]
    cases found : (session.cache site).find? request.cacheKey with
    | some entry =>
      rw [remembered_of_some found]
      exact ⟨sound site _ program arguments runs _ entry found world, .refl session, sound⟩
    | none =>
      obtain ⟨answer, same, caches⟩ := plain world
      rw [remembered_of_none found]
      refine ⟨answer, .trans (.setCache runs.inner ..) same, ?_⟩
      refine Session.Sound.keep (sound.of_caches fun site _ => caches site) runs ?_ fun world => (plain world).1
      rw [caches]
      exact found

end

/-! ### Resolvers that agree -/

theorem Resolver.Apart.lockstep {resolver : Resolver (Session ω)} {request : Request}
    (apart : resolver.Apart view request) :
    Lockstep (Session.Twins view run timeout commands) (resolver request) (resolver request) := by
  intro session session' twins
  obtain ⟨answers, same⟩ := apart.agrees session session' twins.same
  exact ⟨answers, same, twins.one_sound.of_caches (apart.caches session),
    twins.other_sound.of_caches (apart.caches session')⟩

section

variable {state state' : StateSpec} {site : CacheSite} {lifetime lifetime' : Nat}

theorem commandResolver_lockstep {program : String} {arguments : List String} (steady : run.Steady program arguments)
    (runs : commands.Runs site state.timeless program arguments) (alike : state.timeless = state'.timeless)
    (lifetime lifetime' : Nat) {request : Request} (spares : run.Spares view program arguments request.environment) :
    Lockstep (Session.Twins view run timeout commands)
      (state.commandResolver { run, settings := { timeout, lifetime } } site program arguments request)
      (state'.commandResolver { run, settings := { timeout, lifetime := lifetime' } } site program arguments request) := by
  intro session session' twins
  obtain ⟨answer, same, sound⟩ :=
    commandResolver_steady steady runs lifetime twins.one_sound spares session.outside
  obtain ⟨answer', same', sound'⟩ :=
    commandResolver_steady steady (alike ▸ runs) lifetime' twins.other_sound spares session.outside
  refine ⟨?_, same.trans (twins.same.trans same'.symm), sound, sound'⟩
  rw [answer, answer']
  show state.timeless.output run timeout _ _ _ _ = state'.timeless.output run timeout _ _ _ _
  rw [alike]

variable {registry : Registry (Session ω)} {asked : Resolver (Session ω) → Request → Prop}

/-- Definitions of one state that differ in lifetimes make resolvers that agree. -/
theorem StateSpec.resolver_agree (steady : commands.timeless.Steady run)
    (undisturbed : commands.Undisturbed view { run, settings := { timeout, lifetime } } registry asked)
    (defined : ∃ spec, commands.command? site.command = some spec ∧ spec.states.lookup site.state = some state)
    (plain : ∃ spec, commands.timeless.command? site.command = some spec ∧
      spec.states.lookup site.state = some state.timeless)
    (alike : state.timeless = state'.timeless) {resolver resolver' : Resolver (Session ω)}
    (made : state.resolver { run, settings := { timeout, lifetime } } registry site = .ok resolver)
    (made' : state'.resolver { run, settings := { timeout, lifetime := lifetime' } } registry site = .ok resolver') :
    resolver.Agree (asked resolver) (Session.Twins view run timeout commands.timeless) resolver' := by
  have source : state.source? = state'.source? := by
    rw [← state.source?_timeless, alike, StateSpec.source?_timeless]
  have policy : state.policy = state'.policy := by
    rw [← state.policy_timeless, alike, StateSpec.policy_timeless]
  intro request asks
  obtain ⟨_, chosen, made⟩ := StateSpec.resolver_ok_iff.mp made
  obtain ⟨_, chosen', made'⟩ := StateSpec.resolver_ok_iff.mp made'
  rw [← source, chosen] at chosen'
  cases made with
  | command program arguments =>
    obtain rfl := Option.some.inj chosen'
    cases made'
    have runs : commands.timeless.Runs site state.timeless program arguments := ⟨plain, chosen⟩
    have spares := undisturbed.commands site state program arguments request ⟨defined, chosen⟩ asks
    exact commandResolver_lockstep (steady _ _ _ _ runs) runs alike lifetime lifetime' spares
  | words items =>
    obtain rfl := Option.some.inj chosen'
    cases made'
    rw [← policy]
    exact .pure _
  | function registered =>
    obtain rfl := Option.some.inj chosen'
    cases made' with
    | function registered' =>
      obtain rfl := Option.some.inj (registered.symm.trans registered')
      exact (undisturbed.caller resolver request ⟨_, .inr registered⟩ asks).lockstep
  | state =>
    obtain rfl := Option.some.inj chosen'
    cases made'
    exact .pure _

end

/-! ### Commands that agree -/

section

variable {other : Specification} {registry : Registry (Session ω)} {asked : Resolver (Session ω) → Request → Prop}
  {lifetime lifetime' : Nat} {path : List String}

theorem Specification.HandsDown.agree (steady : commands.timeless.Steady run)
    (undisturbed : commands.Undisturbed view { run, settings := { timeout, lifetime } } registry asked)
    (alike : commands.timeless = other.timeless) {name : String} {answer answer' : Option (Resolver (Session ω))}
    (given : commands.HandsDown { run, settings := { timeout, lifetime } } registry path name answer)
    (given' : other.HandsDown { run, settings := { timeout, lifetime := lifetime' } } registry path name answer') :
    Option.Rel (fun resolver => Resolver.Agree (asked resolver) (Session.Twins view run timeout commands.timeless)
      resolver) answer answer' := by
  cases given with
  | nearest nearest made =>
    cases given' with
    | nearest nearest' made' =>
      have plain := nearest.timeless
      obtain ⟨rfl, states⟩ := plain.unique (alike ▸ nearest'.timeless)
      exact .some (StateSpec.resolver_agree steady undisturbed nearest.defined plain.defined states made made')
    | caller undefined =>
      exact absurd (nearest.timeless.length_lt (alike ▸ undefined.timeless)) (Nat.not_lt_zero _)
  | caller undefined =>
    cases given' with
    | nearest nearest' => exact absurd (nearest'.timeless.length_lt (alike ▸ undefined.timeless)) (Nat.not_lt_zero _)
    | caller =>
      cases known : registry.state? name with
      | none => exact .none
      | some resolver =>
        exact .some fun request asks => (undisturbed.caller resolver request ⟨name, .inl known⟩ asks).lockstep

theorem Specification.Resolves.agree (steady : commands.timeless.Steady run)
    (undisturbed : commands.Undisturbed view { run, settings := { timeout, lifetime } } registry asked)
    (alike : commands.timeless = other.timeless) {spec spec' : CommandSpec} (same : spec.timeless = spec'.timeless)
    {name : String} {answer answer' : Option (Resolver (Session ω))}
    (resolves : commands.Resolves { run, settings := { timeout, lifetime } } registry path spec name answer)
    (resolves' :
      other.Resolves { run, settings := { timeout, lifetime := lifetime' } } registry path spec' name answer') :
    Option.Rel (fun resolver => Resolver.Agree (asked resolver) (Session.Twins view run timeout commands.timeless)
      resolver) answer answer' := by
  have names : Table.names spec.subcommands = Table.names spec'.subcommands := by
    rw [← spec.names_subcommands_timeless, same, CommandSpec.names_subcommands_timeless]
  have empty := Table.eq_nil_iff_of_names names
  cases resolves with
  | listed below =>
    cases resolves' with
    | listed =>
      rw [names]
      exact .some fun _ _ => .pure _
    | handedDown none => exact absurd (empty.mpr (none rfl)) below
  | handedDown none given =>
    cases resolves' with
    | listed below => exact absurd (empty.mp (none rfl)) below
    | handedDown _ given' => exact given.agree steady undisturbed alike given'

theorem Reached.agree (steady : commands.timeless.Steady run)
    (undisturbed : commands.Undisturbed view { run, settings := { timeout, lifetime } } registry asked)
    (alike : commands.timeless = other.timeless) {spec spec' : CommandSpec} {node node' : CommandNode (Session ω)}
    (h : Reached { run, settings := { timeout, lifetime } } registry commands path spec node)
    (h' : Reached { run, settings := { timeout, lifetime := lifetime' } } registry other path spec' node') :
    node.Agree asked (Session.Twins view run timeout commands.timeless) node' := by
  have same : spec.timeless = spec'.timeless := by
    have found := commands.command?_timeless path
    rw [alike, other.command?_timeless, h.1, h'.1] at found
    exact (Option.some.inj found).symm
  refine ⟨?_, fun name => (h.resolves name).agree steady undisturbed alike same (h'.resolves name), fun name => ?_⟩
  · obtain ⟨-, own, -, makes⟩ := h
    obtain ⟨-, own', -, makes'⟩ := h'
    have tokens : spec.tokens = spec'.tokens := by
      rw [← spec.tokens_timeless, same, CommandSpec.tokens_timeless]
    exact Except.ok.inj (makes.grammar.symm.trans (tokens ▸ makes'.grammar))
  · rw [h.function?, h'.function?]
    cases known : registry.function? name with
    | none => exact .none
    | some resolver =>
      exact .some fun request asks => (undisturbed.caller resolver request ⟨name, .inr known⟩ asks).lockstep

end

end

/-! ### Loading and serving -/

namespace CommandTree

variable {view : ω → α} {run : Runner ω} {registry : Registry (Session ω)} {timeout lifetime lifetime' : Nat}
  {commands other : Specification}

theorem Loads.agree {asked : Resolver (Session ω) → Request → Prop} {tree tree' : CommandTree (Session ω)}
    (loads : Loads { run, settings := { timeout, lifetime } } registry commands (.ok tree))
    (otherLoads : Loads { run, settings := { timeout, lifetime := lifetime' } } registry other (.ok tree'))
    (alike : commands.timeless = other.timeless) (steady : commands.Steady run)
    (undisturbed : commands.Undisturbed view { run, settings := { timeout, lifetime } } registry asked) :
    tree.Agree asked (Session.Twins view run timeout commands.timeless) tree' := by
  intro path
  have same : (commands.command? path).map CommandSpec.timeless = (other.command? path).map CommandSpec.timeless := by
    rw [← commands.command?_timeless, alike, other.command?_timeless]
  cases found : commands.command? path with
  | none =>
    rw [found, eq_comm, Option.map_none, Option.map_eq_none_iff] at same
    rw [node?_eq_none loads found, node?_eq_none otherLoads same]
    exact .none
  | some spec =>
    rw [found, eq_comm, Option.map_some, Option.map_eq_some_iff] at same
    obtain ⟨spec', found', -⟩ := same
    obtain ⟨node, reached, h⟩ := exists_reached loads found
    obtain ⟨node', reached', h'⟩ := exists_reached otherLoads found'
    rw [reached, reached']
    exact .some (h.agree steady.timeless undisturbed alike h')

theorem Loads.alike {loaded otherLoaded : Except Error (CommandTree (Session ω))}
    (loads : Loads { run, settings := { timeout, lifetime } } registry commands loaded)
    (otherLoads : Loads { run, settings := { timeout, lifetime := lifetime' } } registry other otherLoaded)
    (alike : commands.timeless = other.timeless) :
    Alike (fun _ _ => True) loaded otherLoaded := by
  have faults : CommandSpec.firstFault? { run, settings := { timeout, lifetime } } registry [] commands.nodes =
      CommandSpec.firstFault? { run, settings := { timeout, lifetime := lifetime' } } registry [] other.nodes :=
    calc CommandSpec.firstFault? { run, settings := { timeout, lifetime } } registry [] commands.nodes
      _ = CommandSpec.firstFault? { run } registry [] commands.timeless.nodes :=
        (CommandSpec.firstFault?_timeless ..).symm
      _ = CommandSpec.firstFault? { run } registry [] other.timeless.nodes := by rw [alike]
      _ = _ := CommandSpec.firstFault?_timeless ..
  have errors (error : Error) : loaded = .error error ↔ otherLoaded = .error error := by
    rw [loads.error_iff, otherLoads.error_iff, faults]
  cases loaded with
  | error error =>
    rw [(errors error).mp rfl]
    exact .error error
  | ok tree =>
    cases otherLoaded with
    | error error => cases (errors error).mpr rfl
    | ok tree' => exact .ok trivial

/-- How long outputs are kept makes no difference if the output of every command is fixed by what the command is
given, and the commands change nothing that other resolvers look at. Two specifications that differ only in lifetimes,
loaded with any standard lifetimes, fail to load with the same error or give the same answers to a sequence of requests
from a session without outputs. Of the resolvers only those matter that the requests ask. -/
theorem serve_timeless {loaded otherLoaded : Except Error (CommandTree (Session ω))}
    (loads : Loads { run, settings := { timeout, lifetime } } registry commands loaded)
    (otherLoads : Loads { run, settings := { timeout, lifetime := lifetime' } } registry other otherLoaded)
    (alike : commands.timeless = other.timeless) (steady : commands.Steady run) (hops : Nat)
    (requests : List (List String × Nat))
    (undisturbed : ∀ tree, loaded = .ok tree →
      commands.Undisturbed view { run, settings := { timeout, lifetime } } registry (tree.Asks requests))
    {start : Session ω} (fresh : ∀ site, site.command ≠ [] → start.cache site = []) :
    let engine (tree : CommandTree (Session ω)) : Engine (Session ω) := { select := tree.select, hops }
    let completions tree := (serve (fun request => (engine tree).complete request.1 request.2) requests start).1
    let explanations tree := (serve (fun request => (engine tree).explain request.1 request.2) requests start).1
    loaded.map completions = otherLoaded.map completions ∧ loaded.map explanations = otherLoaded.map explanations := by
  intro engine completions explanations
  have sound : start.Sound run timeout commands.timeless := by
    intro site state program arguments runs key entry found
    rw [fresh site runs.inner] at found
    cases found
  cases loads.alike otherLoads alike with
  | error error => exact ⟨rfl, rfl⟩
  | @ok tree tree' =>
    have agree := loads.agree otherLoads alike steady (undisturbed tree rfl)
    have select (request : List String × Nat) := select_alike agree request.1 request.2
    have asks (request : List String × Nat) (posed : request ∈ requests) (selection : Selection (Session ω))
        (selected : tree.select request.1 request.2 = .ok selection) (resolver : Resolver (Session ω))
        (asked : Request) (asks : selection.Asks request.1 request.2 resolver asked) :
        tree.Asks requests resolver asked :=
      ⟨request.1, request.2, selection, posed, selected, asks⟩
    have completes (request : List String × Nat) (posed : request ∈ requests) :
        Alike (Lockstep _) ((engine tree).complete request.1 request.2) ((engine tree').complete request.1 request.2) :=
      Engine.complete_alike rfl (select request) (asks request posed)
    have explains (request : List String × Nat) (posed : request ∈ requests) :
        Alike (Lockstep _) ((engine tree).explain request.1 request.2) ((engine tree').explain request.1 request.2) :=
      Engine.explain_alike rfl (select request) (asks request posed)
    have twins : Session.Twins view run timeout commands.timeless start start := ⟨.refl start, sound, sound⟩
    exact ⟨congrArg Except.ok (serve_lockstep completes start start twins).1,
      congrArg Except.ok (serve_lockstep explains start start twins).1⟩

set_option maxRecDepth 4096 in
/-- One cache serves `t`, its subcommand `u` and the alias `r`. Runs are counted outside, where `files` does not look. -/
theorem serve_timeless_shared :
    let text := "[commands.t]\ntokens=[':r',':files()']\n[commands.t.states.r]\nstate='s'\n" ++
      "[commands.t.states.s]\ncommand=['p']\n[commands.t.subcommands.u]\ntokens=[':s']"
    let run : Runner (List String × Nat) := fun _ _ environment _ world =>
      (environment.lookup "COMPLINE_PARTIAL", world.1, world.2 + 1)
    let registry : Registry (Session (List String × Nat)) := {
      functions := [("files", Resolver.outside fun _ world => (.candidates world.1 .leading, world))] }
    let requests := [(["t", "a"], 1), (["t", "u", "a"], 2), (["t", "a", ""], 2), (["t", "a"], 1)]
    let start : Session (List String × Nat) := { outside := (["b"], 0) }
    let answers (tree : CommandTree (Session (List String × Nat))) :=
      (serve (fun request => Engine.complete { select := tree.select } request.1 request.2) requests start).1
    ∃ tree tree', ofText { run } registry text = .ok tree ∧
      ofText { run, settings := { lifetime := 9 } } registry text = .ok tree' ∧ answers tree = answers tree' := by
  intro text run registry requests start answers
  have read : Specification.read? text = some [("t", {
      tokens := [":r", ":files()"]
      states := [("r", { state := some "s" }), ("s", { command := some ["p"] })]
      subcommands := [("u", { tokens := [":s"] })] })] := by
    simp only [text]
    cbv
  obtain ⟨tree, loads⟩ : ∃ tree, ofText { run } registry text = .ok tree := by
    rw [ofText_of_read read]
    exact ⟨_, rfl⟩
  obtain ⟨tree', loads'⟩ : ∃ tree, ofText { run, settings := { lifetime := 9 } } registry text = .ok tree := by
    rw [ofText_of_read read]
    exact ⟨_, rfl⟩
  have steady (commands : Specification) : commands.Steady run := fun _ _ _ _ _ _ _ _ _ => rfl
  have apart (resolver : Resolver (Session (List String × Nat))) (request : Request)
      (registered : registry.Registered resolver) : resolver.Apart Prod.fst request := by
    obtain ⟨entry, inside, rfl⟩ := Registry.mem_of_registered registered
    obtain rfl := List.mem_singleton.mp inside
    refine ⟨fun session session' same => ⟨?_, same⟩, fun _ _ _ => rfl⟩
    exact congrArg (Answer.candidates · .leading) same.outside
  have undisturbed (commands : Specification) (asked : Resolver (Session (List String × Nat)) → Request → Prop) :
      commands.Undisturbed Prod.fst { run } registry asked :=
    ⟨fun resolver request registered _ => apart resolver request registered, fun _ _ _ _ _ _ _ _ _ => rfl⟩
  have first : Loads { run } registry _ (ofText { run } registry text) := .text read
  have second : Loads { run, settings := { lifetime := 9 } } registry _
      (ofText { run, settings := { lifetime := 9 } } registry text) := .text read
  have fresh (site : CacheSite) (_ : site.command ≠ []) : start.cache site = [] := rfl
  have same :=
    (serve_timeless first second rfl (steady _) defaultHops requests (fun _ _ => undisturbed _ _) fresh).1
  rw [loads, loads'] at same
  exact ⟨tree, tree', loads, loads', Except.ok.inj same⟩

/-- The command always prints `x`; it makes the file `a`, and `b` once there is `a`. -/
theorem not_serve_timeless_of_files :
    let text := "[commands.t]\ntokens=[':s',':files()']\n[commands.t.states.s]\ncommand=['p']"
    let run : Runner World := fun _ _ _ _ world =>
      let name := if (world.tree.node? ["a"]).isSome then "b" else "a"
      (some "x", { world with tree := world.tree.put [name] (.ofText "") })
    let registry : Registry (Session World) := Files.registry.within (·.outside.outlook) fun _ session => session
    let requests := [(["t", ""], 1), (["t", ""], 1), (["t", "x", ""], 2)]
    let answers (tree : CommandTree (Session World)) :=
      (serve (fun request => Engine.complete { select := tree.select } request.1 request.2) requests
        { outside := {} }).1
    (∀ program arguments, run.Steady program arguments) ∧
    ∃ tree tree', ofText { run } registry text = .ok tree ∧
      ofText { run, settings := { lifetime := 9 } } registry text = .ok tree' ∧
      answers tree = [.ok ["x"], .ok ["x"], .ok ["a", "b"]] ∧ answers tree' = [.ok ["x"], .ok ["x"], .ok ["a"]] := by
  intro text run registry requests answers
  let state : StateSpec := { command := some ["p"] }
  have read : Specification.read? text = some [("t", { tokens := [":s", ":files()"], states := [("s", state)] })] := by
    simp only [text]
    cbv
  let node (lifetime : Nat) : CommandNode (Session World) := {
    grammar := { slots := [⟨⟨[.state "s"], none⟩, false⟩, ⟨⟨[.function "files"], none⟩, false⟩] }
    registry := registry.addState "s" (state.commandResolver { run, settings := { lifetime } } ⟨["t"], "s"⟩ "p" [])
    subcommands := [] }
  let asks (lifetime : Nat) := (node lifetime).registry.complete defaultHops (node lifetime).grammar
  have serves (lifetime : Nat) {first second : Session World} {items : List String}
      (one : asks lifetime ["t", ""] 1 { outside := {} } = (["x"], first))
      (two : asks lifetime ["t", ""] 1 first = (["x"], second))
      (last : asks lifetime ["t", "x", ""] 2 second = (items, second)) :
      answers [("t", node lifetime)] = [.ok ["x"], .ok ["x"], .ok items] := by
    let answer (request : List String × Nat) :=
      Engine.complete { select := select [("t", node lifetime)] } request.1 request.2
    have completes (rest : List String) (cursor : Nat) :
        answer ("t" :: rest, cursor) = .ok (asks lifetime ("t" :: rest) cursor) :=
      complete_of_leaf rfl rfl ..
    show (serve answer requests { outside := {} }).1 = _
    simp only [requests]
    rw [serve_cons (completes [""] 1) one, serve_cons (completes [""] 1) two, serve_cons (completes ["x", ""] 2) last]
    rfl
  let containing (names : List String) : World := { tree := { nodes := names.map fun name => ([name], .ofText "") } }
  have shows (lifetime : Nat) {session : Session World} {names : List String}
      (outside : session.outside = containing names)
      (offers : Policy.path.select (Files.candidates (containing names).list? none false "") "" = names) :
      asks lifetime ["t", "x", ""] 2 session = (names, session) := by
    have listed : asks lifetime ["t", "x", ""] 2 session =
        (Policy.path.select (Files.candidates session.outside.list? session.outside.environment.home? false "") "",
          session) := rfl
    rw [listed, outside]
    exact congrArg (·, session) offers
  refine ⟨fun _ _ _ _ _ _ => rfl, _, _, (ofText_of_read read).trans rfl, (ofText_of_read read).trans rfl, ?_, ?_⟩
  · obtain ⟨first, second, one, two, outside⟩ : ∃ first second, asks 0 ["t", ""] 1 { outside := {} } = (["x"], first) ∧
        asks 0 ["t", ""] 1 first = (["x"], second) ∧ second.outside = containing ["a", "b"] := ⟨_, _, rfl, rfl, rfl⟩
    refine serves 0 one two (shows 0 outside ?_)
    simp only [containing]
    cbv
  · obtain ⟨session, one, two, outside⟩ : ∃ session, asks 9 ["t", ""] 1 { outside := {} } = (["x"], session) ∧
        asks 9 ["t", ""] 1 session = (["x"], session) ∧ session.outside = containing ["a"] := ⟨_, rfl, rfl, rfl⟩
    refine serves 9 one two (shows 9 outside ?_)
    simp only [containing]
    cbv

end CommandTree

end ShellCompletion
