import ShellCompletion.Error
import ShellCompletion.Session
import ShellCompletion.Specification.Basic

/-!
# Resolvers of specified states

`StateSpec.resolver` makes the resolver of a state, or says what is wrong with the state. A state whose
answer comes from a command has a cache of its own unless the lifetime is zero.
-/

namespace ShellCompletion

/-- What specified states are built with. -/
structure Workshop (ω : Type) where
  run : Runner ω
  settings : Settings := {}

variable {ω : Type}

/-- The resolver of a command that is kept at `site`. -/
def StateSpec.commandResolver (spec : StateSpec) (workshop : Workshop ω) (site : CacheSite)
    (program : String) (arguments : List String) : Resolver (Session ω) :=
  let timeout := spec.timeout.getD workshop.settings.timeout
  let command : ExternalCommand := { program, arguments, timeout, policy := spec.policy }
  .cached (Session.slot site) (spec.lifetime.getD workshop.settings.lifetime)
    (Resolver.command workshop.run command).outside

/-- The resolver of the state at `site`; functions are looked up in `known`. -/
def StateSpec.resolver (spec : StateSpec) (workshop : Workshop ω) (known : Registry (Session ω))
    (site : CacheSite) : Except StateFault (Resolver (Session ω)) :=
  match spec.source? with
  | none => .error .notOneAnswer
  | some (.command []) => .error .emptyCommand
  | some (.command (program :: arguments)) =>
    .ok (spec.commandResolver workshop site program arguments)
  | some (.words items) => .ok (.words items spec.policy)
  | some (.function name) =>
    match known.function? name with
    | some resolver => .ok resolver
    | none => .error (.unknownFunction name)
  | some (.state name) => if name = site.state then .error .refersToItself else .ok (.alias name)

end ShellCompletion
