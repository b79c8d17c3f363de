import ShellCompletion.Proofs.Grammar.Compile

/-!
# Longer lists of tokens

A grammar is made token by token, and each token only adds to what is there (`Grows.addToken`): flags keep their places
and spellings, slots and sets are only continued. The first token at fault ends a list (`addTokens_error_iff`). So a
grammar grows with its tokens, and once a list is refused, nothing that follows changes the error (`compile_append`).
-/

namespace ShellCompletion

theorem Names.prefix_addNew (known new : List String) : known <+: addNew known new := by
  induction new generalizing known with
  | nil => exact List.prefix_rfl
  | cons name rest ih =>
    rw [addNew_cons]
    split
    next => exact ih known
    next => exact (List.prefix_append known [name]).trans (ih _)

/-- What the smaller grammar has stays in its place in the larger one, which may only add to it. -/
structure Grammar.Grows (smaller larger : Grammar) : Prop where
  bound : ∀ spelling id, smaller.flagId? spelling = some id → larger.flagId? spelling = some id
  flags : ∀ (id : Nat) (flag : Flag), smaller.flags[id]? = some flag →
    ∃ later : Flag, larger.flags[id]? = some later ∧ flag.spellings <+: later.spellings
  slots : smaller.slots <+: larger.slots
  sets : ∀ name members, smaller.namedSet? name = some members →
    ∃ later, larger.namedSet? name = some later ∧ members <+: later

namespace Grammar.Grows

variable {smaller middle larger : Grammar}

theorem refl (grammar : Grammar) : grammar.Grows grammar where
  bound _ _ bound := bound
  flags _ flag here := ⟨flag, here, List.prefix_rfl⟩
  slots := List.prefix_rfl
  sets _ members known := ⟨members, known, List.prefix_rfl⟩

theorem trans (first : smaller.Grows middle) (second : middle.Grows larger) : smaller.Grows larger where
  bound spelling id bound := second.bound spelling id (first.bound spelling id bound)
  flags id flag here := by
    obtain ⟨between, found, starts⟩ := first.flags id flag here
    obtain ⟨later, last, continues⟩ := second.flags id between found
    exact ⟨later, last, starts.trans continues⟩
  slots := first.slots.trans second.slots
  sets name members known := by
    obtain ⟨between, found, starts⟩ := first.sets name members known
    obtain ⟨later, last, continues⟩ := second.sets name between found
    exact ⟨later, last, starts.trans continues⟩

end Grammar.Grows

/-! ### One token -/

namespace Draft

variable {draft next : Draft}

/-- A declared flag is put behind the others, or amends some of them where they are. -/
theorem flags_declareFlag {declared : FlagDeclaration} {flags : List Flag}
    (h : draft.declareFlag declared = .ok flags) {id : Nat} {flag : Flag}
    (here : draft.grammar.flags[id]? = some flag) :
    ∃ later, flags[id]? = some later ∧ flag.spellings <+: later.spellings := by
  rcases declareFlag_ok_iff.mp h with ⟨-, rfl⟩ | ⟨-, -, rfl⟩
  · exact ⟨flag, List.getElem?_append_left (List.getElem?_eq_some_iff.mp here).1 ▸ here, List.prefix_rfl⟩
  · refine ⟨_, by rw [List.getElem?_map, here, Option.map_some], ?_⟩
    split
    next => exact List.prefix_append ..
    next => exact List.prefix_rfl

theorem sets_openSet {grammar : Grammar} {opened name : String} {members : List String}
    (known : grammar.namedSet? name = some members) : (openSet grammar opened).namedSet? name = some members := by
  rw [namedSet?_openSet]
  split
  next same => rw [← same, known, Option.getD_some]
  next => exact known

theorem sets_collect {name : String} {members : List String} (spellings : List String)
    (known : draft.grammar.namedSet? name = some members) :
    ∃ later, (draft.collect spellings).lookup name = some later ∧ members <+: later := by
  rw [lookup_collect, known, Option.map_some]
  split
  next => exact ⟨_, rfl, Names.prefix_addNew members spellings⟩
  next => exact ⟨members, rfl, List.prefix_rfl⟩

theorem grows_declare {declaration : Declaration} (h : draft.declare declaration = .ok next)
    (bound : ∀ spelling id, draft.grammar.flagId? spelling = some id → next.grammar.flagId? spelling = some id) :
    draft.grammar.Grows next.grammar := by
  cases declaration with
  | set name =>
    cases name with
    | none =>
      obtain rfl := Except.ok.inj h
      exact .refl _
    | some name =>
      obtain rfl := Except.ok.inj h
      exact {
        bound
        flags := fun id flag here => ⟨flag, by rwa [openSet_flags], List.prefix_rfl⟩
        slots := openSet_slots .. ▸ List.prefix_rfl
        sets := fun other members known => ⟨members, sets_openSet known, List.prefix_rfl⟩ }
  | slot slot =>
    obtain rfl := Except.ok.inj h
    exact { Grammar.Grows.refl draft.grammar with bound, slots := List.prefix_append .. }
  | flag declared =>
    obtain ⟨flags, declares, h⟩ := bind_ok.mp h
    obtain rfl := Except.ok.inj h
    exact {
      bound
      flags := fun id flag here => flags_declareFlag declares here
      slots := List.prefix_rfl
      sets := fun name members known => sets_collect declared.spellings known }

theorem grows_addToken {token : String} (h : draft.addToken token = .ok next) :
    draft.grammar.Grows next.grammar := by
  obtain ⟨declaration, -, declares⟩ := bind_ok.mp h
  exact grows_declare declares fun spelling id bound => flagId?_addToken bound h

/-! ### Lists of tokens -/

theorem grows_addTokens {last : Draft} {index : Nat} {tokens : List String}
    (h : draft.addTokens index tokens = .ok last) : draft.grammar.Grows last.grammar :=
  addTokens_induction (P := fun next => draft.grammar.Grows next.grammar)
    (fun sofar added => sofar.trans (grows_addToken added)) (.refl _) h

/-- A list is refused for the first of its tokens that is at fault. -/
theorem addTokens_error_iff {index : Nat} {tokens : List String} {error : TokenError} :
    draft.addTokens index tokens = .error error ↔
      ∃ before after middle, tokens = before ++ error.token :: after ∧ error.index = index + before.length ∧
        draft.addTokens index before = .ok middle ∧ middle.addToken error.token = .error error.fault := by
  induction tokens generalizing draft index with
  | nil => simp [addTokens]
  | cons token rest ih =>
    cases added : draft.addToken token with
    | error fault =>
      rw [addTokens, added]
      constructor
      · intro same
        obtain rfl := Except.error.inj same
        exact ⟨[], rest, draft, rfl, rfl, rfl, added⟩
      · rintro ⟨before, after, middle, whole, place, taken, failed⟩
        cases before with
        | nil =>
          obtain ⟨position, culprit, reason⟩ := error
          obtain rfl : position = index := place
          obtain ⟨rfl, -⟩ := List.cons.inj whole
          obtain rfl := Except.ok.inj taken
          obtain rfl := Except.error.inj (added.symm.trans failed)
          rfl
        | cons first before =>
          obtain ⟨rfl, -⟩ := List.cons.inj whole
          rw [addTokens, added] at taken
          cases taken
    | ok next =>
      rw [addTokens, added]
      refine ih.trans ⟨?_, ?_⟩
      · rintro ⟨before, after, middle, rfl, place, taken, failed⟩
        refine ⟨token :: before, after, middle, rfl, ?_, ?_, failed⟩
        · rw [place, List.length_cons]
          omega
        · rw [addTokens, added]
          exact taken
      · rintro ⟨before, after, middle, whole, place, taken, failed⟩
        cases before with
        | nil =>
          obtain ⟨rfl, rfl⟩ := List.cons.inj whole
          obtain rfl := Except.ok.inj taken
          rw [added] at failed
          cases failed
        | cons first before =>
          obtain ⟨rfl, rfl⟩ := List.cons.inj whole
          rw [addTokens, added] at taken
          refine ⟨before, after, middle, rfl, ?_, taken, failed⟩
          rw [place, List.length_cons]
          omega

end Draft

section Compile

variable {tokens : List String} {error : TokenError}

theorem compile_error_iff :
    Grammar.compile tokens = .error error ↔
      ∃ before after middle, tokens = before ++ error.token :: after ∧ error.index = before.length ∧
        Draft.addTokens {} 0 before = .ok middle ∧ middle.addToken error.token = .error error.fault := by
  have same : Grammar.compile tokens = .error error ↔ Draft.addTokens {} 0 tokens = .error error := by
    unfold Grammar.compile
    cases Draft.addTokens {} 0 tokens <;> simp [Except.map]
  simp only [same, Draft.addTokens_error_iff, Nat.zero_add]

/-- Nothing that follows on a token at fault is looked at. -/
theorem compile_error_append (h : Grammar.compile tokens = .error error) (more : List String) :
    Grammar.compile (tokens ++ more) = .error error := by
  obtain ⟨before, after, middle, rfl, place, taken, failed⟩ := compile_error_iff.mp h
  exact compile_error_iff.mpr ⟨before, after ++ more, middle, by simp, place, taken, failed⟩

theorem exists_compile_of_append {more : List String} {larger : Grammar}
    (h : Grammar.compile (tokens ++ more) = .ok larger) :
    ∃ smaller, Grammar.compile tokens = .ok smaller ∧ smaller.Grows larger := by
  cases compiled : Grammar.compile tokens with
  | error error =>
    rw [compile_error_append compiled more] at h
    cases h
  | ok smaller =>
    obtain ⟨middle, taken, rfl⟩ := compile_ok_iff.mp compiled
    obtain ⟨last, added, rfl⟩ := compile_ok_iff.mp h
    rw [Draft.addTokens_append taken] at added
    exact ⟨_, rfl, Draft.grows_addTokens added⟩

/-- The lists that end before the token at fault compile, and no others do. -/
theorem exists_compile_take_iff (h : Grammar.compile tokens = .error error) {count : Nat}
    (within : count ≤ tokens.length) :
    (∃ grammar, Grammar.compile (tokens.take count) = .ok grammar) ↔ count ≤ error.index := by
  obtain ⟨before, after, middle, rfl, place, taken, failed⟩ := compile_error_iff.mp h
  constructor
  · rintro ⟨grammar, compiled⟩
    refine Nat.le_of_not_lt fun beyond => ?_
    -- The token at fault would be among those that are taken.
    obtain ⟨further, same⟩ : ∃ further, count - before.length = further + 1 := ⟨count - before.length - 1, by omega⟩
    have fails : Grammar.compile ((before ++ error.token :: after).take count) = .error error := by
      rw [List.take_append, List.take_of_length_le (by omega), same, List.take_succ_cons]
      exact compile_error_iff.mpr ⟨before, _, middle, rfl, place, taken, failed⟩
    rw [compiled] at fails
    cases fails
  · intro short
    have whole : Grammar.compile (before.take count ++ before.drop count) = .ok middle.grammar := by
      rw [List.take_append_drop]
      exact compile_ok_iff.mpr ⟨middle, taken, rfl⟩
    obtain ⟨smaller, compiled, -⟩ := exists_compile_of_append whole
    rw [List.take_append_of_le_length (by omega)]
    exact ⟨smaller, compiled⟩

end Compile

/-- More tokens only add to a grammar, and a list that is refused stays refused for the same reason, which stands right
behind the longest of its beginnings that compiles. -/
theorem compile_append (tokens more : List String) :
    (∀ larger, Grammar.compile (tokens ++ more) = .ok larger →
      ∃ smaller, Grammar.compile tokens = .ok smaller ∧ smaller.Grows larger ∧
        ∀ spelling id, smaller.flagId? spelling = some id →
          ∀ (place : Nat) (flag : Flag), larger.flags[place]? = some flag →
            (spelling ∈ flag.spellings ↔ place = id)) ∧
    ∀ error, Grammar.compile tokens = .error error →
      Grammar.compile (tokens ++ more) = .error error ∧ tokens[error.index]? = some error.token ∧
        ∀ count ≤ tokens.length,
          (∃ grammar, Grammar.compile (tokens.take count) = .ok grammar) ↔ count ≤ error.index := by
  constructor
  · intro larger h
    obtain ⟨smaller, compiled, grows⟩ := exists_compile_of_append h
    refine ⟨smaller, compiled, grows, fun spelling id old place flag here => ?_⟩
    have kept := grows.bound spelling id old
    constructor
    · intro mine
      exact Option.some.inj ((flagId?_of_mem h here mine).symm.trans kept)
    · rintro rfl
      obtain ⟨found, same, mine⟩ := (Grammar.flagId?_eq_some_iff (compile_wellFormed h).apart).mp kept
      obtain rfl := Option.some.inj (same.symm.trans here)
      exact mine
  · intro error h
    refine ⟨compile_error_append h more, ?_, fun count within => exists_compile_take_iff h within⟩
    obtain ⟨before, after, middle, rfl, place, -, -⟩ := compile_error_iff.mp h
    rw [place, List.getElem?_append_right (Nat.le_refl _), Nat.sub_self, List.getElem?_cons_zero]

/-- `--all` joins the flag of `-a` and the open set later on; `-c` cannot join two flags at once, whatever follows. -/
theorem compile_append_joined :
    (let tokens := ["+s", "-a", "*-v"]
      let more := ["\x7b-a,--all\x7d:x", "(g)\x7b@s\x7d", ":y"]
      ∃ smaller larger, Grammar.compile (tokens ++ more) = .ok larger ∧ Grammar.compile tokens = .ok smaller ∧
        smaller.Grows larger ∧ larger.flagId? "--all" = some 0 ∧
        smaller.namedSet? "s" = some ["-a", "-v"] ∧ larger.namedSet? "s" = some ["-a", "-v", "--all"]) ∧
    let tokens := ["-a", "-b", "\x7b-a,-b,-c\x7d", "q"]
    let error : TokenError := ⟨2, "\x7b-a,-b,-c\x7d", .conflictingAliases "-a" "-b"⟩
    Grammar.compile tokens = .error error ∧ Grammar.compile (tokens ++ ["-c"]) = .error error ∧
      ∀ count ≤ 4, (∃ grammar, Grammar.compile (tokens.take count) = .ok grammar) ↔ count ≤ 2 := by
  constructor
  · intro tokens more
    have whole : Grammar.compile (tokens ++ more) = .ok _ := rfl
    obtain ⟨smaller, compiled, grows, -⟩ := (compile_append tokens more).1 _ whole
    have start : Grammar.compile tokens = .ok _ := rfl
    obtain rfl := Except.ok.inj (start.symm.trans compiled)
    exact ⟨_, _, whole, compiled, grows, by decide, by decide, by decide⟩
  · intro tokens error
    have refused : Grammar.compile tokens = .error error := rfl
    obtain ⟨stays, -, longest⟩ := (compile_append tokens ["-c"]).2 error refused
    exact ⟨refused, stays, longest⟩

end ShellCompletion
