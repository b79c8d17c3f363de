import ShellCompletion.Proofs.Resolver.Cache

/-!
# Caches and the clock

An entry of a dated cache carries the moment when it was kept. An entry as old as the lifetime is no longer found,
and it is left out when another answer is kept. Within the lifetime a dated cache works as one without dates
(`ShownIn.run`), and with a lifetime of zero there might as well be none (`ShownIn.run_of_zero`). So the running cache,
which leaves time out, gives the same answers (`run_eq_cached`).
-/

namespace ShellCompletion

variable {ω : Type}

structure DatedEntry extends CacheEntry where
  kept : Nat

def DatedEntry.alive (entry : DatedEntry) (lifetime now : Nat) : Bool := now - entry.kept < lifetime

/-- The entries that are kept, at most one for a key. -/
abbrev DatedCache := List DatedEntry

namespace DatedCache

def find? (cache : DatedCache) (lifetime now : Nat) (key : CacheKey) : Option DatedEntry :=
  (List.find? (fun entry => entry.key == key) cache).filter fun entry => entry.alive lifetime now

/-- Keeps candidates for the key, in the place of what was kept for it, and drops what is too old. -/
def add (cache : DatedCache) (lifetime now : Nat) (key : CacheKey) : Answer → DatedCache
  | .candidates items policy =>
    { key, items, policy, kept := now } :: cache.filter fun entry => entry.alive lifetime now && entry.key != key
  | _ => cache

def undated (cache : DatedCache) : Cache := cache.map (·.toCacheEntry)

/-- Every entry is young enough at the moment. -/
def lasts (cache : DatedCache) (lifetime now : Nat) : Bool := cache.all fun entry => entry.alive lifetime now

end DatedCache

/-- Puts a dated cache in front of a resolver. It is looked at in the moment `looked`, and an answer is kept in the
moment `kept`. -/
def Resolver.dated (lifetime looked kept : Nat) (resolver : Resolver ω) : Resolver (DatedCache × ω) :=
  fun request (cache, outside) =>
    match cache.find? lifetime looked request.cacheKey with
    | some entry => (entry.answer, cache, outside)
    | none =>
      let (answer, after) := resolver request outside
      (answer, cache.add lifetime kept request.cacheKey answer, after)

inductive DatedUse where
  | ask (request : Request) (looked kept : Nat)
  | clear

def DatedUse.undated : DatedUse → CacheUse
  | .ask request _ _ => .ask request
  | .clear => .clear

/-- A request comes while every entry is young enough; the cache may be dropped at any time. -/
def DatedUse.inTime (lifetime : Nat) (cache : DatedCache) : DatedUse → Bool
  | .ask _ looked kept => cache.lasts lifetime looked && cache.lasts lifetime kept
  | .clear => true

structure DatedState (ω : Type) where
  /-- The exchanges since the cache was dropped. -/
  log : List Exchange := []
  cache : DatedCache := []
  outside : ω

namespace DatedState

variable {lifetime : Nat} {resolver : Resolver ω}

def apply (lifetime : Nat) (resolver : Resolver ω) (state : DatedState ω) : DatedUse → DatedState ω
  | .ask request looked kept =>
    let (answer, cache, outside) := resolver.dated lifetime looked kept request (state.cache, state.outside)
    { log := state.log ++ [(request, answer)], cache, outside }
  | .clear => { outside := state.outside }

def run (lifetime : Nat) (resolver : Resolver ω) (state : DatedState ω) (uses : List DatedUse) : DatedState ω :=
  uses.foldl (apply lifetime resolver) state

/-- No entry gets as old as the lifetime before the cache is dropped. -/
def lasts (lifetime : Nat) (resolver : Resolver ω) : DatedState ω → List DatedUse → Bool
  | _, [] => true
  | state, use :: rest =>
    use.inTime lifetime state.cache && lasts lifetime resolver (state.apply lifetime resolver use) rest

theorem lasts_append (state : DatedState ω) (uses later : List DatedUse) :
    state.lasts lifetime resolver (uses ++ later) =
      (state.lasts lifetime resolver uses && (state.run lifetime resolver uses).lasts lifetime resolver later) := by
  induction uses generalizing state with
  | nil => rfl
  | cons use rest ih => rw [List.cons_append, lasts, ih, ← Bool.and_assoc]; rfl

end DatedState

/-! ### Entries within their lifetime -/

namespace DatedCache

variable {cache : DatedCache} {lifetime now : Nat} {key : CacheKey}

theorem undated_find? (cache : DatedCache) (key : CacheKey) :
    cache.undated.find? key = (List.find? (fun entry => entry.key == key) cache).map (·.toCacheEntry) := by
  rw [undated, Cache.find?, List.find?_map]
  rfl

theorem find?_of_lasts (lasting : cache.lasts lifetime now = true) (key : CacheKey) :
    (cache.find? lifetime now key).map (·.toCacheEntry) = cache.undated.find? key := by
  rw [undated_find?, find?]
  cases found : List.find? (fun entry : DatedEntry => entry.key == key) cache with
  | none => rfl
  | some entry =>
    have young : entry.alive lifetime now = true :=
      List.all_eq_true.mp lasting entry (List.mem_of_find?_eq_some found)
    rw [Option.filter_some, if_pos young]

theorem undated_add (lasting : cache.lasts lifetime now = true) (absent : cache.undated.find? key = none)
    (answer : Answer) : (cache.add lifetime now key answer).undated = cache.undated.add key answer := by
  cases answer with
  | state name => rfl
  | grammar next offset => rfl
  | candidates items policy =>
    rw [undated_find?, Option.map_eq_none_iff, List.find?_eq_none] at absent
    -- Nothing is dropped: every entry is young, and none is of the key.
    have all : (cache.filter fun entry => entry.alive lifetime now && entry.key != key) = cache :=
      List.filter_eq_self.mpr fun entry inside => by
        rw [List.all_eq_true.mp lasting entry inside, Bool.true_and, bne, Bool.eq_false_iff.mpr (absent entry inside)]
        rfl
    rw [add, all]
    rfl

end DatedCache

theorem DatedCache.find?_of_zero (cache : DatedCache) (now : Nat) (key : CacheKey) : cache.find? 0 now key = none :=
  Option.filter_eq_none_iff.mpr fun _ _ young => Nat.not_lt_zero _ (of_decide_eq_true young)

section Dated

variable {site : CacheSite} {lifetime looked kept : Nat} {resolver : Resolver ω} {request : Request}

theorem Resolver.dated_of_some {cache : DatedCache} {entry : DatedEntry}
    (found : cache.find? lifetime looked request.cacheKey = some entry) (outside : ω) :
    resolver.dated lifetime looked kept request (cache, outside) = (entry.answer, cache, outside) := by
  simp only [Resolver.dated, found]

theorem Resolver.dated_of_none {cache : DatedCache}
    (absent : cache.find? lifetime looked request.cacheKey = none) (outside : ω) :
    resolver.dated lifetime looked kept request (cache, outside) =
      ((resolver request outside).1, cache.add lifetime kept request.cacheKey (resolver request outside).1,
        (resolver request outside).2) := by
  simp only [Resolver.dated, absent]
  rfl

/-! ### The running cache -/

/-- Within the lifetime a dated cache answers and keeps what a cache without dates does. -/
theorem dated_eq_remembered (resolver : Resolver ω) (request : Request) {cache : DatedCache} {session : Session ω}
    (same : session.cache site = cache.undated) (early : cache.lasts lifetime looked = true)
    (late : cache.lasts lifetime kept = true) :
    let asked := resolver.dated lifetime looked kept request (cache, session.outside)
    let given := Resolver.remembered (Session.slot site) resolver.outside request session
    given.1 = asked.1 ∧ given.2.cache site = asked.2.1.undated ∧ given.2.outside = asked.2.2 := by
  intro asked given
  have sight := DatedCache.find?_of_lasts early request.cacheKey
  cases found : cache.find? lifetime looked request.cacheKey with
  | some entry =>
    rw [found, Option.map_some, ← same] at sight
    have hit : given = (entry.answer, session) := remembered_of_some sight.symm
    have datedHit : asked = (entry.answer, cache, session.outside) := Resolver.dated_of_some found session.outside
    rw [hit, datedHit]
    exact ⟨rfl, same, rfl⟩
  | none =>
    rw [found, Option.map_none] at sight
    have miss : given = (_, _) := remembered_of_none (same ▸ sight.symm)
    have datedMiss : asked = (_, _, _) := Resolver.dated_of_none found session.outside
    rw [miss, datedMiss, Session.cache_setCache]
    refine ⟨rfl, ?_, rfl⟩
    show (session.cache site).add request.cacheKey _ = _
    rw [same, DatedCache.undated_add late sight.symm]
    rfl

/-- The session has the log, the cache without its dates, and the same outside. -/
structure DatedState.ShownIn (site : CacheSite) (state : DatedState ω) (reached : List Exchange × Session ω) :
    Prop where
  log : reached.1 = state.log
  cache : reached.2.cache site = state.cache.undated
  outside : reached.2.outside = state.outside

namespace DatedState

variable {state : DatedState ω} {reached : List Exchange × Session ω}

theorem ShownIn.apply (shown : state.ShownIn site reached) {use : DatedUse}
    (inTime : use.inTime lifetime state.cache = true) :
    (state.apply lifetime resolver use).ShownIn site
      (CacheUse.apply site (Resolver.remembered (Session.slot site) resolver.outside) reached use.undated) := by
  obtain ⟨log, cache, outside⟩ := state
  obtain ⟨earlier, session⟩ := reached
  obtain ⟨rfl, same, rfl⟩ := shown
  cases use with
  | clear => exact ⟨rfl, Session.cache_setCache .., rfl⟩
  | ask request looked kept =>
    obtain ⟨early, late⟩ := Bool.and_eq_true_iff.mp inTime
    obtain ⟨answer, cache, outside⟩ := dated_eq_remembered resolver request same early late
    exact ⟨congrArg (fun answer => earlier ++ [(request, answer)]) answer, cache, outside⟩

theorem ShownIn.run (shown : state.ShownIn site reached) {uses : List DatedUse}
    (lasting : state.lasts lifetime resolver uses = true) :
    (state.run lifetime resolver uses).ShownIn site
      ((uses.map DatedUse.undated).foldl
        (CacheUse.apply site (Resolver.remembered (Session.slot site) resolver.outside)) reached) := by
  induction uses generalizing state reached with
  | nil => exact shown
  | cons use rest ih =>
    obtain ⟨inTime, later⟩ := Bool.and_eq_true_iff.mp lasting
    exact ih (shown.apply inTime) later

/-! ### No lifetime -/

theorem ShownIn.run_of_zero (log : reached.1 = state.log) (outside : reached.2.outside = state.outside)
    (uses : List DatedUse) :
    let after := (uses.map DatedUse.undated).foldl (CacheUse.apply site resolver.outside) reached
    after.1 = (state.run 0 resolver uses).log ∧ after.2.outside = (state.run 0 resolver uses).outside := by
  induction uses generalizing state reached with
  | nil => exact ⟨log, outside⟩
  | cons use rest ih =>
    obtain ⟨earlier, session⟩ := reached
    obtain ⟨_, cache, _⟩ := state
    obtain ⟨rfl, rfl⟩ : earlier = _ ∧ session.outside = _ := ⟨log, outside⟩
    cases use with
    | clear => exact ih rfl rfl
    | ask request looked kept =>
      have miss : resolver.dated 0 looked kept request (cache, session.outside) = (_, _, _) :=
        Resolver.dated_of_none (cache.find?_of_zero looked request.cacheKey) session.outside
      refine ih ?_ ?_
      all_goals
        simp only [DatedState.apply, miss]
        rfl

/-- A dated cache gives the log of the running one, which leaves time out. -/
theorem run_eq_cached (site : CacheSite) (outside : ω) {uses : List DatedUse}
    (lasting : lifetime = 0 ∨ lasts lifetime resolver { outside } uses = true) :
    let reached := run lifetime resolver { outside } uses
    let running := CacheUse.run site (Resolver.cached (Session.slot site) lifetime resolver.outside)
      (uses.map DatedUse.undated) { outside }
    running.1 = reached.log ∧ running.2.outside = reached.outside := by
  have shown : ShownIn site { outside : DatedState ω } ([], { outside }) := ⟨rfl, rfl, rfl⟩
  by_cases zero : lifetime = 0
  · subst zero
    exact ShownIn.run_of_zero shown.log shown.outside uses
  · rw [Resolver.cached, if_neg zero]
    have after := shown.run (lasting.resolve_left zero)
    exact ⟨after.log, after.outside⟩

end DatedState

end Dated

end ShellCompletion
