import ShellCompletion.Resolver.Cache

/-!
# Sessions

A session is what lives on between requests: the caches and an outside `ω` that resolvers may look at or
change. Every cache has a site, so that a resolver that is registered in several places keeps one cache.
A change of one cache leaves the others alone (`cache_setCache_other`).
-/

namespace ShellCompletion

/-- Where a cache belongs: the command that defines the cached state, and the name of the state. -/
structure CacheSite where
  command : List String
  state : String
deriving DecidableEq, Repr

structure Session (ω : Type) where
  outside : ω
  caches : List (CacheSite × Cache) := []

namespace Session

variable {ω : Type}

def cache (session : Session ω) (site : CacheSite) : Cache := (session.caches.lookup site).getD []

def setCache (site : CacheSite) (cache : Cache) (session : Session ω) : Session ω :=
  { session with caches := (site, cache) :: session.caches.filter (·.1 != site) }

def slot (site : CacheSite) : CacheSlot (Session ω) where
  get session := session.cache site
  set := setCache site

@[simp] theorem cache_setCache (site : CacheSite) (cache : Cache) (session : Session ω) :
    (setCache site cache session).cache site = cache := by
  simp [Session.cache, setCache]

theorem cache_setCache_other {site other : CacheSite} (h : other ≠ site) (cache : Cache)
    (session : Session ω) : (setCache site cache session).cache other = session.cache other := by
  have kept (entries : List (CacheSite × Cache)) :
      (entries.filter (·.1 != site)).lookup other = entries.lookup other := by
    induction entries with
    | nil => rfl
    | cons entry rest ih =>
      obtain ⟨here, old⟩ := entry
      by_cases same : here = site
      · subst same
        simp [List.lookup_cons, beq_false_of_ne h, ih]
      · simp [List.lookup_cons, same, ih]
  simp [Session.cache, setCache, List.lookup_cons, beq_false_of_ne h, kept]

end Session

/-- A resolver of the outside alone. -/
def Resolver.outside {ω : Type} (resolver : Resolver ω) : Resolver (Session ω) :=
  resolver.within Session.outside fun outside session => { session with outside }

def Registry.within {σ τ : Type} (get : τ → σ) (set : σ → τ → τ) (registry : Registry σ) :
    Registry τ where
  states := registry.states.map fun (name, resolver) => (name, resolver.within get set)
  functions := registry.functions.map fun (name, resolver) => (name, resolver.within get set)

end ShellCompletion
