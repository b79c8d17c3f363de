import ShellCompletion.Proofs.Resolver.Clock

/-!
# What a cache saves

A resolver may answer differently whenever it is asked. Behind a cache it is asked for a request unless an earlier one
of the same state, text and words was answered with candidates since the cache was dropped, and then these are the
answer (`dated_memo`). It does not matter which earlier one: the candidates that a key was first answered with settle
every later request of the key (`Uniform.concat`).
-/

namespace ShellCompletion

variable {ω : Type}

/-- Writes down every request that the resolver is asked. -/
def Resolver.traced (resolver : Resolver ω) : Resolver (List Request × ω) :=
  fun request (calls, outside) =>
    let (answer, after) := resolver request outside
    (answer, calls ++ [request], after)

/-- The exchange has candidates for the state, text and words of the request. -/
def Request.SettledBy (request : Request) (earlier : Exchange) : Prop :=
  (earlier.1.state = request.state ∧ earlier.1.typed = request.typed ∧ earlier.1.words = request.words) ∧
    earlier.2.isKept = true

/-! ### Uniform logs -/

/-- Every answer that is kept is the one that is recalled for its key. -/
def Uniform (log : List Exchange) : Prop :=
  ∀ earlier ∈ log, earlier.2.isKept = true → recalled log earlier.1.cacheKey = some earlier.2

section Uniform

variable {log : List Exchange} {request : Request}

theorem Request.settledBy_iff {earlier : Exchange} :
    request.SettledBy earlier ↔ earlier.1.cacheKey = request.cacheKey ∧ earlier.2.isKept = true := by
  simp only [Request.SettledBy, Request.cacheKey, CacheKey.mk.injEq]

theorem Uniform.concat (uniform : Uniform log) (own : Answer) :
    Uniform (log ++ [(request, (recalled log request.cacheKey).getD own)]) := by
  intro earlier inside isKept
  rw [recalled_concat]
  rcases List.mem_append.mp inside with before | last
  · rw [uniform earlier before isKept, Option.some_or]
  · obtain rfl := List.mem_singleton.mp last
    cases found : recalled log request.cacheKey with
    | some answer => rfl
    | none =>
      rw [found] at isKept
      rw [Option.none_or]
      exact if_pos ⟨rfl, isKept⟩

theorem Uniform.recalled_of_settled (uniform : Uniform log) {earlier : Exchange} (inside : earlier ∈ log)
    (settled : request.SettledBy earlier) : recalled log request.cacheKey = some earlier.2 := by
  obtain ⟨same, isKept⟩ := Request.settledBy_iff.mp settled
  rw [← same]
  exact uniform earlier inside isKept

theorem recalled_of_unsettled (unsettled : ∀ earlier ∈ log, ¬ request.SettledBy earlier) :
    recalled log request.cacheKey = none := by
  refine Option.map_eq_none_iff.mpr (List.find?_eq_none.mpr fun earlier inside fits => unsettled earlier inside ?_)
  obtain ⟨same, isKept⟩ := Bool.and_eq_true_iff.mp fits
  exact Request.settledBy_iff.mpr ⟨eq_of_beq same, isKept⟩

end Uniform

/-! ### Runs -/

section Runs

variable {site : CacheSite} {lifetime looked kept : Nat} {resolver : Resolver ω}

theorem remembers_run (site : CacheSite) (resolver : Resolver ω) (uses : List CacheUse) (session : Session ω)
    (empty : session.cache site = []) :
    let reached := CacheUse.run site (Resolver.remembered (Session.slot site) resolver.outside) uses session
    reached.2.Remembers site reached.1 ∧ Uniform reached.1 := by
  refine CacheUse.run_keeps (fun log session => session.Remembers site log ∧ Uniform log) ?_ ?_ uses empty
  · exact fun session empty => ⟨remembers_nil empty, nofun⟩
  · rintro log session request ⟨remembers, uniform⟩
    refine ⟨remembers_ask remembers (fun _ _ => rfl) request, ?_⟩
    rw [remembered_answer remembers request]
    exact uniform.concat _

/-- A dated cache that lasts has the answers that its log recalls, and the log is uniform. -/
theorem DatedState.recalls_run {outside : ω} {uses : List DatedUse}
    (lasting : lasts lifetime resolver { outside } uses = true) :
    let reached := run lifetime resolver { outside } uses
    Uniform reached.log ∧
      ∀ key, (reached.cache.undated.find? key).map CacheEntry.answer = recalled reached.log key := by
  intro reached
  -- Any site will do to keep the cache without dates.
  have shown : ShownIn ⟨[], ""⟩ { outside : DatedState ω } ([], { outside }) := ⟨rfl, rfl, rfl⟩
  have after := shown.run lasting
  obtain ⟨remembers, uniform⟩ := remembers_run ⟨[], ""⟩ resolver (uses.map DatedUse.undated) { outside } rfl
  rw [← after.log, ← after.cache]
  exact ⟨uniform, remembers⟩

/-- While nothing is too old, a request is answered by what is recalled, and the resolver is asked where nothing is. -/
theorem DatedState.asked_of_lasts {outside : ω} {uses : List DatedUse} {request : Request}
    (lasting : lasts lifetime resolver { outside } (uses ++ [.ask request looked kept]) = true) :
    let reached := run lifetime resolver { outside } uses
    let asked := resolver.dated lifetime looked kept request (reached.cache, reached.outside)
    Uniform reached.log ∧
      (∀ answer, recalled reached.log request.cacheKey = some answer →
        asked = (answer, reached.cache, reached.outside)) ∧
      (recalled reached.log request.cacheKey = none →
        asked.1 = (resolver request reached.outside).1 ∧ asked.2.2 = (resolver request reached.outside).2) := by
  intro reached asked
  rw [lasts_append, Bool.and_eq_true] at lasting
  obtain ⟨uniform, recalls⟩ := recalls_run lasting.1
  have early : reached.cache.lasts lifetime looked = true :=
    (Bool.and_eq_true_iff.mp (Bool.and_eq_true_iff.mp lasting.2).1).1
  have sight := recalls request.cacheKey
  rw [← DatedCache.find?_of_lasts early, Option.map_map] at sight
  refine ⟨uniform, fun answer found => ?_, fun missing => ?_⟩
  · obtain ⟨entry, seen, rfl⟩ := Option.map_eq_some_iff.mp (sight.trans found)
    exact Resolver.dated_of_some seen reached.outside
  · have unseen := Option.map_eq_none_iff.mp (sight.trans missing)
    have miss : asked = (_, _, _) := Resolver.dated_of_none unseen reached.outside
    rw [miss]
    exact ⟨rfl, rfl⟩

/-- An answer that is not kept is the resolver's own, and the cache stays as it is. -/
theorem Resolver.dated_of_not_kept {cache : DatedCache} {outside : ω} {request : Request}
    (passed : (resolver.dated lifetime looked kept request (cache, outside)).1.isKept = false) :
    resolver.dated lifetime looked kept request (cache, outside) =
      ((resolver request outside).1, cache, (resolver request outside).2) := by
  cases found : cache.find? lifetime looked request.cacheKey with
  | some entry =>
    rw [Resolver.dated_of_some found] at passed
    exact absurd passed (by simp [CacheEntry.answer, Answer.isKept])
  | none =>
    rw [Resolver.dated_of_none found] at passed ⊢
    have same : cache.add lifetime kept request.cacheKey (resolver request outside).1 = cache := by
      cases own : (resolver request outside).1 with
      | candidates items policy => simp [own, Answer.isKept] at passed
      | state name => rfl
      | grammar next offset => rfl
    rw [same]

/-- While no entry gets as old as the lifetime, a request is answered by every earlier exchange that settles it, and the
resolver is asked exactly where there is none. An answer that is not kept is passed on. Without a lifetime the resolver
is always asked. The running cache gives the log that the dated one does. -/
theorem dated_memo (resolver : Resolver ω) (outside : ω) (lifetime : Nat) (uses : List DatedUse) (request : Request)
    (looked kept : Nat) (site : CacheSite) :
    let start : DatedState (List Request × ω) := { outside := ([], outside) }
    let reached := start.run lifetime resolver.traced uses
    let asked := resolver.traced.dated lifetime looked kept request (reached.cache, reached.outside)
    let own := resolver request reached.outside.2
    let calls := reached.outside.1 ++ [request]
    (start.lasts lifetime resolver.traced (uses ++ [.ask request looked kept]) = true →
      (∀ earlier ∈ reached.log, request.SettledBy earlier → asked = (earlier.2, reached.cache, reached.outside)) ∧
      ((∀ earlier ∈ reached.log, ¬ request.SettledBy earlier) → asked.1 = own.1 ∧ asked.2.2 = (calls, own.2)) ∧
      (asked.2.2.1 = calls ↔ ∀ earlier ∈ reached.log, ¬ request.SettledBy earlier)) ∧
    (asked.1.isKept = false → asked = (own.1, reached.cache, calls, own.2)) ∧
    (lifetime = 0 → asked.1 = own.1 ∧ asked.2.2 = (calls, own.2)) ∧
    (lifetime = 0 ∨ start.lasts lifetime resolver.traced uses = true →
      let running := CacheUse.run site (Resolver.cached (Session.slot site) lifetime resolver.traced.outside)
        (uses.map DatedUse.undated) { outside := ([], outside) }
      running.1 = reached.log ∧ running.2.outside = reached.outside) := by
  intro start reached asked own calls
  refine ⟨fun lasting => ?_, fun passed => ?_, fun zero => ?_, fun lasting => ?_⟩
  · obtain ⟨uniform, hit, miss⟩ := DatedState.asked_of_lasts lasting
    have settled : ∀ earlier ∈ reached.log, request.SettledBy earlier →
        asked = (earlier.2, reached.cache, reached.outside) := fun earlier inside settled =>
      hit earlier.2 (uniform.recalled_of_settled inside settled)
    have unsettled : (∀ earlier ∈ reached.log, ¬ request.SettledBy earlier) →
        asked.1 = own.1 ∧ asked.2.2 = (calls, own.2) := fun none => miss (recalled_of_unsettled none)
    refine ⟨settled, unsettled, fun called earlier inside settles => ?_, fun none => ?_⟩
    · -- A settled request adds no call.
      rw [settled earlier inside settles] at called
      simp [calls] at called
    · exact congrArg Prod.fst (unsettled none).2
  · exact Resolver.dated_of_not_kept passed
  · subst zero
    have miss : asked = (_, _, _) :=
      Resolver.dated_of_none (reached.cache.find?_of_zero looked request.cacheKey) reached.outside
    rw [miss]
    exact ⟨rfl, rfl⟩
  · exact DatedState.run_eq_cached site ([], outside) lasting

/-- A resolver that counts is asked anew after the cache was dropped, and then no more; an answer that names a state is
not kept, and nothing is without a lifetime. -/
theorem dated_memo_counter :
    let resolver : Resolver Nat := fun request count =>
      (if request.state = "next" then .state "item" else .candidates [toString count] .leading, count + 1)
    let request (state : String) : Request :=
      { state, typed := "x", parse := Grammar.parse {} ["tool", "x"] 1, words := ["tool", "x"] }
    let uses : List DatedUse := [.ask (request "item") 0 5, .clear, .ask (request "item") 10 20,
      .ask (request "next") 25 30, .ask (request "other") 35 40]
    let start : DatedState (List Request × Nat) := { outside := ([], 0) }
    let reached := start.run 60 resolver.traced uses
    let asked (state : String) :=
      resolver.traced.dated 60 70 75 (request state) (reached.cache, reached.outside)
    let eager := start.run 0 resolver.traced uses
    (∀ state, start.lasts 60 resolver.traced (uses ++ [.ask (request state) 70 75]) = true) ∧
      reached.outside.1 = [request "item", request "item", request "next", request "other"] ∧
      asked "item" = (.candidates ["1"] .leading, reached.cache, reached.outside) ∧
      (asked "next").1 = .state "item" ∧ (asked "next").2.2.1 = reached.outside.1 ++ [request "next"] ∧
      (resolver.traced.dated 0 70 75 (request "item") (eager.cache, eager.outside)).1 = .candidates ["4"] .leading := by
  intro resolver request uses start reached asked eager
  have lasting (state : String) : start.lasts 60 resolver.traced (uses ++ [.ask (request state) 70 75]) = true := rfl
  have law (state : String) := dated_memo resolver 0 60 uses (request state) 70 75 ⟨[], "item"⟩
  have first : (request "item", .candidates ["1"] .leading) ∈ reached.log := .head _
  have passed := (law "next").2.1 rfl
  have own := (dated_memo resolver 0 0 uses (request "item") 70 75 ⟨[], "item"⟩).2.2.1 rfl
  have fourth : eager.outside.2 = 4 := rfl
  exact ⟨lasting, rfl, ((law "item").1 (lasting "item")).1 _ first ⟨⟨rfl, rfl, rfl⟩, rfl⟩,
    congrArg (·.1) passed, congrArg (·.2.2.1) passed,
    own.1.trans (congrArg (fun count => (resolver (request "item") count).1) fourth)⟩

end Runs

end ShellCompletion
