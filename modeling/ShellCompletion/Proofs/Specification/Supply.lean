import ShellCompletion.Proofs.Dispatch.Origin
import ShellCompletion.Proofs.Resolver.Cache
import ShellCompletion.Proofs.Specification.Reachable

/-!
# What commands draw on

With no output kept from before, every candidate of a command is written in the specification, or a line that some
program prints, or it comes from a function of the caller's (`Reached.drawsOn`).
-/

namespace ShellCompletion

variable {ω : Type} {commands : Specification} {caller : String → String → Prop} {session : Session ω}

/-- The item is written down, as a word of a state or as the name of a subcommand. -/
inductive Specification.Writes (commands : Specification) (item : String) : Prop
  | word {path spec name state items} (found : commands.command? path = some spec)
      (defined : spec.states.lookup name = some state) (source : state.source? = some (.words items))
      (member : item ∈ items)
  | subcommand {path spec} (found : commands.command? path = some spec)
      (member : item ∈ Table.names spec.subcommands)

/-- What the commands of a specification draw on, if functions of the caller's draw on `caller`. -/
inductive Specification.Supply (commands : Specification) (caller : String → String → Prop) (typed item : String) : Prop
  | written (writes : commands.Writes item)
  | printed {output} (line : item ∈ outputLines output)
  | caller (given : caller typed item)

/-! ### States -/

section

variable {workshop : Workshop ω} {registry : Registry (Session ω)} {site : CacheSite} {state : StateSpec}

theorem words_drawsOn {σ : Type} {supply : String → String → Prop} {items : List String}
    (supplied : ∀ item ∈ items, ∀ typed, supply typed item) (policy : Policy) (session : σ) :
    (Resolver.words items policy).DrawsOn supply session :=
  fun _ => .inl ⟨items, policy, rfl, fun item member => supplied item member _⟩

theorem commandResolver_drawsOn (fresh : session.cache site = []) (program : String) (arguments : List String) :
    (state.commandResolver workshop site program arguments).DrawsOn (commands.Supply caller) session := by
  intro request
  obtain ⟨output, answer⟩ : ∃ output,
      (state.commandResolver workshop site program arguments request session).1 =
        .candidates (outputLines output) state.policy := by
    unfold StateSpec.commandResolver Resolver.cached
    split
    · exact ⟨_, rfl⟩
    · rw [remembered_of_none (by rw [fresh]; rfl)]
      exact ⟨_, rfl⟩
  exact .inl ⟨outputLines output, state.policy, answer, fun _ => .printed⟩

theorem StateSpec.resolver_drawsOn (fresh : session.cache site = []) (draws : registry.DrawsOn caller session)
    {spec : CommandSpec} (found : commands.command? site.command = some spec)
    (defined : spec.states.lookup site.state = some state) {resolver : Resolver (Session ω)}
    (made : state.resolver workshop registry site = .ok resolver) :
    resolver.DrawsOn (commands.Supply caller) session := by
  obtain ⟨source, chosen, made⟩ := StateSpec.resolver_ok_iff.mp made
  cases made with
  | command program arguments => exact commandResolver_drawsOn fresh program arguments
  | words items =>
    exact words_drawsOn (fun item member _ => .written (.word found defined chosen member)) state.policy session
  | function registered => exact (draws resolver ⟨_, .inr registered⟩).mono fun _ _ => .caller
  | state => exact fun _ => .inr ⟨_, rfl⟩

end

/-! ### Commands -/

theorem Reached.drawsOn {workshop : Workshop ω} {registry : Registry (Session ω)} {path : List String}
    {spec : CommandSpec} {node : CommandNode (Session ω)}
    (h : Reached workshop registry commands path spec node) (fresh : ∀ site, session.cache site = [])
    (draws : registry.DrawsOn caller session) : node.registry.DrawsOn (commands.Supply caller) session := by
  rintro resolver ⟨name, known | known⟩
  · have resolves := h.resolves name
    rw [known] at resolves
    cases resolves with
    | listed below =>
      exact words_drawsOn (fun item member _ => .written (.subcommand h.1 member)) .leading session
    | handedDown _ given =>
      generalize asked : some resolver = answer at given
      cases given with
      | nearest nearest made =>
        obtain rfl := Option.some.inj asked
        obtain ⟨origin, found, defined⟩ := nearest.defined
        exact StateSpec.resolver_drawsOn (fresh _) draws found defined made
      | caller undefined => exact (draws resolver ⟨name, .inl asked.symm⟩).mono fun _ _ => .caller
  · rw [h.function?] at known
    exact (draws resolver ⟨name, .inr known⟩).mono fun _ _ => .caller

end ShellCompletion
