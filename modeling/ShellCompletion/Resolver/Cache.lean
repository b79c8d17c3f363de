import ShellCompletion.Resolver.Basic

/-!
# Cached resolvers

A cache keeps the candidates that a resolver gave and answers a later request with the same state, typed
text and words from them. Answers that name a state or a grammar are passed on and never kept. A cache
with a lifetime of zero keeps nothing.
-/

namespace ShellCompletion

structure CacheKey where
  state : String
  typed : String
  words : List String
deriving DecidableEq, Repr

def Request.cacheKey (request : Request) : CacheKey := ⟨request.state, request.typed, request.words⟩

structure CacheEntry where
  key : CacheKey
  items : List String
  policy : Policy

/-- The candidates that are kept, the latest first. -/
abbrev Cache := List CacheEntry

namespace Cache

def find? (cache : Cache) (key : CacheKey) : Option CacheEntry :=
  List.find? (fun entry => entry.key == key) cache

def add (cache : Cache) (key : CacheKey) : Answer → Cache
  | .candidates items policy => { key, items, policy } :: cache
  | _ => cache

@[simp] theorem find?_add (cache : Cache) (key : CacheKey) (items : List String) (policy : Policy) :
    (cache.add key (.candidates items policy)).find? key = some ⟨key, items, policy⟩ := by
  simp [Cache.find?, Cache.add]

end Cache

/-- The place of one cache in a session. -/
structure CacheSlot (σ : Type) where
  get : σ → Cache
  set : Cache → σ → σ

namespace Resolver

variable {σ : Type}

/-- Puts a cache in front of `resolver`. -/
def remembered (slot : CacheSlot σ) (resolver : Resolver σ) : Resolver σ :=
  fun request session =>
    match (slot.get session).find? request.cacheKey with
    | some entry => (.candidates entry.items entry.policy, session)
    | none =>
      let (answer, after) := resolver request session
      (answer, slot.set ((slot.get after).add request.cacheKey answer) after)

/-- A cache with a lifetime in seconds. Unless it is zero, requests are taken to come within it. -/
def cached (slot : CacheSlot σ) (lifetime : Nat) (resolver : Resolver σ) : Resolver σ :=
  if lifetime = 0 then resolver else remembered slot resolver

end Resolver

end ShellCompletion
