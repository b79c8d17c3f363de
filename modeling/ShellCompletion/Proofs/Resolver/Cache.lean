import ShellCompletion.Grammar.Compile
import ShellCompletion.Session

/-!
# What a cache recalls

A log holds the exchanges with a cached resolver since its cache was dropped. The cache recalls the first
candidates that the log has for a key (`remembers_ask`), and the resolver is asked where there are none
(`remembered_answer`). The key leaves out how the words were read, so a request may be answered for
another reading of the same words: with the answer to the first request of its key (`cached_answer`).
-/

namespace ShellCompletion

variable {ω : Type}

/-- Only candidates are kept. -/
def Answer.isKept : Answer → Bool
  | .candidates .. => true
  | _ => false

def CacheEntry.answer (entry : CacheEntry) : Answer := .candidates entry.items entry.policy

abbrev Exchange := Request × Answer

/-- The first answer to a request of the key that is kept; the log is in the order of the requests. -/
def recalled (log : List Exchange) (key : CacheKey) : Option Answer :=
  (log.find? fun exchange => exchange.1.cacheKey == key && exchange.2.isKept).map (·.2)

/-- The cache at the site has the candidates that its log holds. -/
def Session.Remembers (site : CacheSite) (log : List Exchange) (session : Session ω) : Prop :=
  ∀ key, ((session.cache site).find? key).map CacheEntry.answer = recalled log key

/-! ### Keeping an answer -/

theorem recalled_concat (log : List Exchange) (request : Request) (answer : Answer) (key : CacheKey) :
    recalled (log ++ [(request, answer)]) key =
      (recalled log key).or (if request.cacheKey = key ∧ answer.isKept = true then some answer else none) := by
  unfold recalled
  rw [List.find?_append, Option.map_or, List.find?_singleton]
  congr 1
  split <;> simp_all

theorem Cache.answer_find?_add {cache : Cache} {key : CacheKey} (absent : cache.find? key = none)
    (answer : Answer) (other : CacheKey) :
    ((cache.add key answer).find? other).map CacheEntry.answer =
      ((cache.find? other).map CacheEntry.answer).or
        (if key = other ∧ answer.isKept = true then some answer else none) := by
  cases answer with
  | state name => simp [Cache.add, Answer.isKept]
  | grammar next offset => simp [Cache.add, Answer.isKept]
  | candidates items policy =>
    by_cases same : key = other
    · subst same
      simp [absent, Answer.isKept, CacheEntry.answer]
    · have apart : (key == other) = false := beq_false_of_ne same
      simp [Cache.add, Cache.find?, apart, same]

/-! ### One exchange -/

section Exchange

variable {site : CacheSite} {log : List Exchange} {session : Session ω} {resolver : Resolver (Session ω)}

theorem remembered_of_some {request : Request} {entry : CacheEntry}
    (found : (session.cache site).find? request.cacheKey = some entry) :
    Resolver.remembered (Session.slot site) resolver request session = (entry.answer, session) := by
  have same : ((Session.slot site).get session).find? request.cacheKey = some entry := found
  rw [Resolver.remembered, same]
  rfl

theorem remembered_of_none {request : Request}
    (absent : (session.cache site).find? request.cacheKey = none) :
    Resolver.remembered (Session.slot site) resolver request session =
      ((resolver request session).1, Session.setCache site
        (((resolver request session).2.cache site).add request.cacheKey (resolver request session).1)
        (resolver request session).2) := by
  have same : ((Session.slot site).get session).find? request.cacheKey = none := absent
  rw [Resolver.remembered, same]
  rfl

theorem remembered_answer (remembers : session.Remembers site log) (request : Request) :
    (Resolver.remembered (Session.slot site) resolver request session).1 =
      (recalled log request.cacheKey).getD (resolver request session).1 := by
  rw [← remembers request.cacheKey]
  cases found : (session.cache site).find? request.cacheKey with
  | some entry => rw [remembered_of_some found, Option.map_some, Option.getD_some]
  | none => rw [remembered_of_none found, Option.map_none, Option.getD_none]

/-- A resolver that leaves the cache alone is remembered exchange by exchange. -/
theorem remembers_ask (remembers : session.Remembers site log)
    (apart : ∀ request session, (resolver request session).2.cache site = session.cache site)
    (request : Request) :
    let asked := Resolver.remembered (Session.slot site) resolver request session
    asked.2.Remembers site (log ++ [(request, asked.1)]) := by
  intro asked key
  rw [recalled_concat, ← remembers key]
  cases found : (session.cache site).find? request.cacheKey with
  | some entry =>
    -- The key has an answer already, so the exchange adds none.
    have unchanged : asked = (entry.answer, session) := remembered_of_some found
    rw [unchanged]
    by_cases same : request.cacheKey = key
    · rw [← same, found]
      rfl
    · rw [if_neg fun both => same both.1, Option.or_none]
  | none =>
    have added : asked = (_, _) := remembered_of_none found
    rw [added, Session.cache_setCache, apart]
    exact Cache.answer_find?_add found _ key

end Exchange

/-! ### A sequence of requests -/

inductive CacheUse where
  | ask (request : Request)
  | clear

/-- The log and the session after one more use. -/
def CacheUse.apply (site : CacheSite) (cached : Resolver (Session ω)) :
    List Exchange × Session ω → CacheUse → List Exchange × Session ω
  | (log, session), .ask request =>
    (log ++ [(request, (cached request session).1)], (cached request session).2)
  | (_, session), .clear => ([], Session.setCache site [] session)

/-- The log since the cache was dropped and the session, after uses that begin with an empty cache. -/
def CacheUse.run (site : CacheSite) (cached : Resolver (Session ω)) (uses : List CacheUse)
    (session : Session ω) : List Exchange × Session ω :=
  uses.foldl (CacheUse.apply site cached) ([], session)

theorem CacheUse.run_keeps {site : CacheSite} {cached : Resolver (Session ω)}
    (Kept : List Exchange → Session ω → Prop)
    (clears : ∀ session : Session ω, session.cache site = [] → Kept [] session)
    (asks : ∀ log session request, Kept log session →
      Kept (log ++ [(request, (cached request session).1)]) (cached request session).2)
    (uses : List CacheUse) {session : Session ω} (empty : session.cache site = []) :
    Kept (CacheUse.run site cached uses session).1 (CacheUse.run site cached uses session).2 := by
  have folded (state : List Exchange × Session ω) (kept : Kept state.1 state.2) :
      Kept (uses.foldl (CacheUse.apply site cached) state).1
        (uses.foldl (CacheUse.apply site cached) state).2 := by
    induction uses generalizing state with
    | nil => exact kept
    | cons use rest ih =>
      apply ih
      cases use with
      | ask request => exact asks state.1 state.2 request kept
      | clear => exact clears _ (Session.cache_setCache ..)
  exact folded ([], session) (clears session empty)

section Sequence

variable {site : CacheSite} {session : Session ω}

theorem remembers_nil (empty : session.cache site = []) : session.Remembers site [] := by
  intro key
  rw [empty]
  rfl

/-! ### Resolvers that look at the request alone -/

/-- The log as it would be without the cache. -/
def ownLog (answer : Request → Answer) (log : List Exchange) : List Exchange :=
  log.map fun exchange => (exchange.1, answer exchange.1)

theorem recalled_own_ask {answer : Request → Answer} {log : List Exchange}
    (own : ∀ key, recalled log key = recalled (ownLog answer log) key) (request : Request) (key : CacheKey) :
    let given := (recalled log request.cacheKey).getD (answer request)
    recalled (log ++ [(request, given)]) key =
      recalled (ownLog answer (log ++ [(request, given)])) key := by
  intro given
  have whole : ownLog answer (log ++ [(request, given)]) = ownLog answer log ++ [(request, answer request)] := by
    simp [ownLog]
  rw [whole, recalled_concat, recalled_concat, ← own key]
  by_cases same : request.cacheKey = key
  · cases found : recalled log key with
    | some earlier => rfl
    | none =>
      have fresh : given = answer request := by
        show (recalled log request.cacheKey).getD _ = _
        rw [same, found, Option.getD_none]
      rw [fresh]
  · simp [same]

/-- The cache remembers its log, and the first answer kept for a key is the resolver's own. -/
theorem remembers_own (answer : Request → Answer) (uses : List CacheUse) (empty : session.cache site = []) :
    let cached := Resolver.remembered (Session.slot site) fun request => return answer request
    let reached := CacheUse.run site cached uses session
    reached.2.Remembers site reached.1 ∧
      ∀ key, recalled reached.1 key = recalled (ownLog answer reached.1) key := by
  refine CacheUse.run_keeps (fun log session => session.Remembers site log ∧
    ∀ key, recalled log key = recalled (ownLog answer log) key) ?_ ?_ uses empty
  · exact fun session empty => ⟨remembers_nil empty, fun key => rfl⟩
  · rintro log session request ⟨remembers, own⟩
    refine ⟨remembers_ask remembers (fun _ _ => rfl) request, fun key => ?_⟩
    rw [remembered_answer remembers request]
    exact recalled_own_ask own request key

theorem recalled_ownLog_eq_some {answer : Request → Answer} {log : List Exchange} {key : CacheKey}
    {given : Answer} (found : recalled (ownLog answer log) key = some given) :
    ∃ earlier ∈ log.map (·.1), earlier.cacheKey = key ∧ answer earlier = given := by
  obtain ⟨exchange, first, rfl⟩ := Option.map_eq_some_iff.mp found
  obtain ⟨earlier, inside, rfl⟩ := List.mem_map.mp (List.mem_of_find?_eq_some first)
  have fits := List.find?_some first
  simp only [Bool.and_eq_true, beq_iff_eq] at fits
  exact ⟨earlier.1, List.mem_map_of_mem inside, fits.1, rfl⟩

/-- A resolver that looks at the request alone is answered for by the first request of the same state,
text and words since the cache was dropped whose answer is kept. So the cache cannot be told from the
resolver where such requests have equal answers. -/
theorem cached_answer (answer : Request → Answer) {lifetime : Nat} (lasting : lifetime ≠ 0)
    (uses : List CacheUse) (empty : session.cache site = []) (request : Request) :
    let cached := Resolver.cached (Session.slot site) lifetime fun request => return answer request
    let reached := CacheUse.run site cached uses session
    let log := reached.1
    let given := (cached request reached.2).1
    given = (recalled (ownLog answer log) request.cacheKey).getD (answer request) ∧
      ((∀ earlier ∈ log.map (·.1), earlier.cacheKey = request.cacheKey → answer earlier = answer request) →
        given = answer request) := by
  intro cached
  have remembered : cached = Resolver.remembered (Session.slot site) fun request => return answer request :=
    if_neg lasting
  rw [remembered]
  intro reached log given
  have kept := remembers_own answer uses empty
  have first : given = (recalled (ownLog answer log) request.cacheKey).getD (answer request) := by
    calc given
        = (recalled log request.cacheKey).getD (answer request) := remembered_answer kept.1 request
      _ = (recalled (ownLog answer log) request.cacheKey).getD (answer request) :=
        congrArg (Option.getD · (answer request)) (kept.2 request.cacheKey)
  refine ⟨first, fun alike => first.trans ?_⟩
  cases found : recalled (ownLog answer log) request.cacheKey with
  | none => rfl
  | some own =>
    obtain ⟨earlier, inside, sameKey, same⟩ := recalled_ownLog_eq_some found
    exact same.symm.trans (alike earlier inside sameKey)

/-- Two readings of one line are the same request for a resolver that answers by the typed text. -/
theorem cached_answer_typed :
    let site : CacheSite := ⟨["tool"], "item"⟩
    let session : Session Unit := { outside := () }
    let answer (request : Request) : Answer := .candidates [request.typed ++ "1"] .leading
    let reading (cursor : Nat) : Request :=
      { state := "item", typed := "x", parse := Grammar.parse {} ["tool", "x", "x"] cursor, words := ["tool", "x", "x"] }
    let cached := Resolver.cached (Session.slot site) 60 fun request => return answer request
    let uses : List CacheUse := [.ask (reading 1), .clear, .ask (reading 2)]
    let reached := CacheUse.run site cached uses session
    session.cache site = [] ∧ reading 1 ≠ reading 2 ∧ (reading 1).cacheKey = (reading 2).cacheKey ∧
      reached.1.map (·.1) = [reading 2] ∧
      (∀ earlier ∈ reached.1.map (·.1), earlier.cacheKey = (reading 1).cacheKey →
        answer earlier = answer (reading 1)) ∧
      (cached (reading 1) reached.2).1 = answer (reading 1) := by
  intro site session answer reading cached uses reached
  have asked : reached.1.map (·.1) = [reading 2] := rfl
  have alike : ∀ earlier ∈ reached.1.map (·.1), earlier.cacheKey = (reading 1).cacheKey →
      answer earlier = answer (reading 1) := by
    rw [asked]
    rintro earlier inside -
    obtain rfl := List.mem_singleton.mp inside
    rfl
  have empty : session.cache site = [] := rfl
  exact ⟨empty, by decide, rfl, asked, alike,
    (cached_answer answer (by decide : 60 ≠ 0) uses empty (reading 1)).2 alike⟩

/-- The grammars tell `-f` apart as a flag, but the words are the same, and so is the key. -/
theorem cached_answer_of_other_reading :
    let plain : Grammar := { slots := [⟨⟨[.state "item"], none⟩, true⟩] }
    let flagged : Grammar := { plain with flags := [{ canonical := "-f" }] }
    let words := ["tool", "-f", "x", "x"]
    let reading (grammar : Grammar) (cursor : Nat) : Request :=
      { state := "item", typed := "x", parse := grammar.parse words cursor, words }
    let answer (request : Request) : Answer := .candidates request.parse.opts .leading
    let site : CacheSite := ⟨["tool"], "item"⟩
    let cached : Resolver (Session Unit) :=
      Resolver.cached (Session.slot site) 60 fun request => return answer request
    let reached := CacheUse.run site cached [.ask (reading plain 2)] { outside := () }
    Grammar.compile [":*item"] = .ok plain ∧ Grammar.compile ["-f", ":*item"] = .ok flagged ∧
      (cached (reading flagged 3) reached.2).1 = .candidates [] .leading ∧
      answer (reading flagged 3) = .candidates ["-f"] .leading :=
  ⟨rfl, rfl, rfl, rfl⟩

end Sequence

end ShellCompletion
