import ShellCompletion.Proofs.Grammar.History

/-!
# What is compiled, and into what

A list of tokens is compiled exactly if the language reads it (`exists_compile_iff`). What the tokens say
of a flag, however they are spread over the list, determines the flag (`redeclaration`): a spelling
belongs to the record it was first bound to, stars add up, and the last actions and the last group count.
-/

namespace ShellCompletion

variable {grammar : Grammar} {spelling : String}

/-! ### Positions of flags -/

namespace Grammar

theorem flag?_eq_bind (grammar : Grammar) (spelling : String) :
    grammar.flag? spelling = (grammar.flagId? spelling).bind (grammar.flags[·]?) :=
  List.find?_eq_bind_findIdx?_getElem?

theorem flagId?_eq_none_iff : grammar.flagId? spelling = none ↔ grammar.canonical? spelling = none := by
  rw [canonical?_eq_none_iff, flagId?, List.findIdx?_eq_none_iff]
  simp

theorem exists_flagId?_iff : (∃ id, grammar.flagId? spelling = some id) ↔ spelling ∈ grammar.spellings := by
  rw [← Option.isSome_iff_exists, ← Option.ne_none_iff_isSome, ne_eq, flagId?_eq_none_iff, canonical?,
    Option.map_eq_none_iff, mem_spellings, ← Option.ne_none_iff_isSome]

/-- Where no spelling is shared, a spelling has the position of the one flag that has it. -/
theorem flagId?_eq_some_iff (apart : grammar.flags.Pairwise Flag.Apart) {id : Nat} :
    grammar.flagId? spelling = some id ↔
      ∃ flag, grammar.flags[id]? = some flag ∧ spelling ∈ flag.spellings := by
  constructor
  · intro bound
    obtain ⟨inside, has, -⟩ := List.findIdx?_eq_some_iff_getElem.mp bound
    exact ⟨grammar.flags[id], List.getElem?_eq_getElem inside, by simpa using has⟩
  · rintro ⟨flag, here, mine⟩
    obtain ⟨inside, rfl⟩ := List.getElem?_eq_some_iff.mp here
    refine List.findIdx?_eq_some_iff_getElem.mpr ⟨inside, by simpa using mine, fun earlier less => ?_⟩
    have separate := List.pairwise_iff_getElem.mp apart earlier id (Nat.lt_trans less inside) inside less
    simpa using fun other => separate spelling other mine

theorem flagId?_of_shared (apart : grammar.flags.Pairwise Flag.Apart) {flag : Flag} {other : String}
    (member : flag ∈ grammar.flags) (mine : spelling ∈ flag.spellings) (beside : other ∈ flag.spellings) :
    grammar.flagId? spelling = grammar.flagId? other := by
  have owned {index : Nat} (inside : index < grammar.flags.length) :
      spelling ∈ grammar.flags[index].spellings ↔ other ∈ grammar.flags[index].spellings := by
    have here : grammar.flags[index] ∈ grammar.flags := List.getElem_mem inside
    constructor
    · intro found
      rwa [eq_of_shared apart here member found mine]
    · intro found
      rwa [eq_of_shared apart here member found beside]
  cases found : grammar.flagId? spelling with
  | none =>
    have absent := canonical?_eq_none_iff.mp (flagId?_eq_none_iff.mp found)
    exact absurd mine (absent flag member)
  | some index =>
    obtain ⟨inside, here, before⟩ := List.findIdx?_eq_some_iff_getElem.mp found
    refine (List.findIdx?_eq_some_iff_getElem.mpr ⟨inside, ?_, fun earlier less => ?_⟩).symm
    · simpa [owned inside] using here
    · simpa [owned (Nat.lt_trans less inside)] using before earlier less

/-- Spellings of one position are spellings of one record. -/
theorem flagId?_eq_iff (apart : grammar.flags.Pairwise Flag.Apart) {id : String}
    (bound : grammar.canonical? spelling = some id) (other : String) :
    grammar.flagId? spelling = grammar.flagId? other ↔
      grammar.canonical? other = some id := by
  rw [← bound, canonical?, canonical?]
  constructor
  · intro same
    rw [flag?_eq_bind, flag?_eq_bind, same]
  · intro same
    obtain ⟨flag, found, canonical⟩ := Option.map_eq_some_iff.mp bound
    rw [found, Option.map_some] at same
    obtain ⟨twin, beside, twins⟩ := Option.map_eq_some_iff.mp same
    obtain ⟨member, mine⟩ := mem_of_flag? found
    obtain ⟨twinMember, twinMine⟩ := mem_of_flag? beside
    have one : twin = flag := eq_of_shared apart twinMember member (List.mem_cons_self ..)
      (twins ▸ List.mem_cons_self ..)
    exact flagId?_of_shared apart member mine (one ▸ twinMine)

end Grammar

namespace Draft

variable {draft next : Draft} {id : Nat}

theorem findIdx?_declareFlag {declared : FlagDeclaration} {flags : List Flag}
    (h : draft.declareFlag declared = .ok flags) (bound : draft.grammar.flagId? spelling = some id) :
    flags.findIdx? (spelling ∈ ·.spellings) = some id := by
  rcases declareFlag_ok_iff.mp h with ⟨-, rfl⟩ | ⟨-, -, rfl⟩
  · rw [List.findIdx?_append]
    exact (congrArg (Option.or · _) bound).trans (Option.some_or ..)
  -- Amending adds fresh spellings only, and this one is bound.
  · have stale : spelling ∉ draft.fresh declared := by
      intro new
      have free := Grammar.canonical?_eq_none_iff.mpr (mem_fresh.mp new).2
      rw [← Grammar.flagId?_eq_none_iff, bound] at free
      cases free
    rw [List.findIdx?_map]
    simp only [Function.comp_def, mem_amended, stale, and_false, or_false]
    exact bound

theorem flagId?_addToken {token : String} (bound : draft.grammar.flagId? spelling = some id)
    (h : draft.addToken token = .ok next) : next.grammar.flagId? spelling = some id := by
  obtain ⟨declaration, -, h⟩ := bind_ok.mp h
  cases declaration with
  | set name =>
    cases name with
    | none =>
      obtain rfl := Except.ok.inj h
      exact bound
    | some name =>
      obtain rfl := Except.ok.inj h
      rw [Grammar.flagId?, openSet_flags]
      exact bound
  | slot slot =>
    obtain rfl := Except.ok.inj h
    exact bound
  | flag declared =>
    obtain ⟨flags, declares, h⟩ := bind_ok.mp h
    obtain rfl := Except.ok.inj h
    exact findIdx?_declareFlag declares bound

theorem addTokens_append {middle : Draft} {index : Nat} {first : List String}
    (h : draft.addTokens index first = .ok middle) (second : List String) :
    draft.addTokens index (first ++ second) = middle.addTokens (index + first.length) second := by
  induction first generalizing draft index with
  | nil =>
    obtain rfl := Except.ok.inj h
    rfl
  | cons token rest ih =>
    rw [List.cons_append, addTokens]
    unfold addTokens at h
    split at h
    next =>
      rw [List.length_cons, Nat.add_comm rest.length, ← Nat.add_assoc]
      exact ih h
    next => cases h

end Draft

/-! ### Accepted lists -/

section Compiled

variable {tokens : List String} {declarations : List Declaration}

theorem exists_reads_of_compile (h : Grammar.compile tokens = .ok grammar) :
    ∃ declarations, Reads [] tokens declarations := by
  obtain ⟨draft, added, -⟩ := compile_ok_iff.mp h
  exact agrees_start.exists_reads added

theorem Reads.exists_compile (reads : Reads [] tokens declarations) :
    ∃ draft, Grammar.compile tokens = .ok draft.grammar ∧ Agrees declarations.reverse draft := by
  obtain ⟨last, added, agrees⟩ := reads.exists_addTokens agrees_start 0
  rw [List.append_nil] at agrees
  exact ⟨last, compile_ok_iff.mpr ⟨last, added, rfl⟩, agrees⟩

/-- Exactly the lists of tokens that the language reads are compiled. -/
theorem exists_compile_iff (tokens : List String) :
    (∃ grammar, Grammar.compile tokens = .ok grammar) ↔ ∃ declarations, Reads [] tokens declarations := by
  constructor
  · rintro ⟨grammar, h⟩
    exact exists_reads_of_compile h
  · rintro ⟨declarations, reads⟩
    obtain ⟨draft, compiled, -⟩ := reads.exists_compile
    exact ⟨draft.grammar, compiled⟩

/-! ### Compiled flags -/

theorem Agrees.flagId?_eq_none_iff {draft : Draft} (agrees : Agrees declarations.reverse draft) :
    draft.grammar.flagId? spelling = none ↔ spelling ∉ mentioned declarations := by
  rw [Grammar.flagId?_eq_none_iff, agrees.bound, History.record?_eq_none_iff, mem_mentioned_reverse]

/-- What a spelling is bound to in the end is said by any history that mentions it. -/
theorem Agrees.canonical?_of_mentioned {history later : History} {draft : Draft}
    (agrees : Agrees (later ++ history) draft) (named : spelling ∈ mentioned history) :
    draft.grammar.canonical? spelling = history.record? spelling := by
  rw [agrees.bound, History.record?_append later named]

/-- The declaration that mentions a spelling first binds all of its spellings to one record, and to a new
one if none of them was mentioned before. -/
theorem Agrees.bound_together {history later : History} {declaration : Declaration} {draft : Draft}
    (agrees : Agrees (later ++ (declaration :: history)) draft)
    (free : ¬ Conflict history.record? declaration.spellings) {new : String}
    (named : new ∈ declaration.spellings) (first : new ∉ mentioned history) :
    ∃ id, (∀ spelling ∈ declaration.spellings, draft.grammar.flagId? spelling = some id) ∧
      ((∀ spelling ∈ declaration.spellings, spelling ∉ mentioned history) →
        ∀ earlier ∈ mentioned history, draft.grammar.flagId? earlier ≠ some id) := by
  have here {spelling : String} (inside : spelling ∈ declaration.spellings) :
      spelling ∈ mentioned (declaration :: history) := List.mem_append_left _ inside
  obtain ⟨record, binds⟩ := History.exists_record? (here named)
  have bound := (agrees.canonical?_of_mentioned (here named)).trans binds
  have shares := Grammar.flagId?_eq_iff agrees.wellFormed.apart bound
  obtain ⟨id, position⟩ : ∃ id, draft.grammar.flagId? new = some id := by
    rw [← Option.isSome_iff_exists, ← Option.ne_none_iff_isSome, ne_eq, Grammar.flagId?_eq_none_iff, bound]
    exact nofun
  refine ⟨id, fun spelling inside => ?_, fun allNew earlier old same => ?_⟩
  · have joined := History.record?_together free named first inside
    have alike := (agrees.canonical?_of_mentioned (here inside)).trans (joined.trans binds)
    exact ((shares spelling).mpr alike).symm.trans position
  -- An earlier spelling of the same record would have its name mentioned earlier, too.
  · have twin := (shares earlier).mp (position.trans same.symm)
    rw [List.append_cons] at agrees
    rw [agrees.canonical?_of_mentioned old] at twin
    have made := History.record?_make named allNew
    rw [binds] at made
    exact allNew record (List.mem_of_mem_head? made.symm) (History.mem_of_record? twin)

theorem flagId?_take {count : Nat} {sofar : Grammar} {id : Nat}
    (h : Grammar.compile tokens = .ok grammar) (before : Grammar.compile (tokens.take count) = .ok sofar)
    (bound : sofar.flagId? spelling = some id) : grammar.flagId? spelling = some id := by
  obtain ⟨last, added, rfl⟩ := compile_ok_iff.mp h
  obtain ⟨middle, first, rfl⟩ := compile_ok_iff.mp before
  rw [← List.take_append_drop count tokens, Draft.addTokens_append first] at added
  exact Draft.addTokens_induction (P := fun draft => draft.grammar.flagId? spelling = some id)
    Draft.flagId?_addToken bound added

theorem flagId?_of_mem (h : Grammar.compile tokens = .ok grammar) {id : Nat} {flag : Flag}
    (here : grammar.flags[id]? = some flag) (mine : spelling ∈ flag.spellings) :
    grammar.flagId? spelling = some id :=
  (Grammar.flagId?_eq_some_iff (compile_wellFormed h).apart).mpr ⟨flag, here, mine⟩

end Compiled

/-- What a flag is, from what is said of it: each spelling is bound by the first declaration that
mentions it, to the record of the other spellings there that are bound already, or else to a new one. -/
theorem redeclaration {tokens : List String} (h : Grammar.compile tokens = .ok grammar) :
    (∃ declarations, Reads [] tokens declarations) ∧
    ∀ declarations, Reads [] tokens declarations →
      (∀ count, ∃ sofar, Grammar.compile (tokens.take count) = .ok sofar ∧
        ∀ spelling, sofar.flagId? spelling =
          if spelling ∈ mentioned (declarations.take count) then grammar.flagId? spelling else none) ∧
      (∀ before declaration after, declarations = before ++ declaration :: after →
        (∃ new ∈ declaration.spellings, new ∉ mentioned before) →
          ∃ id, (∀ spelling ∈ declaration.spellings, grammar.flagId? spelling = some id) ∧
            ((∀ spelling ∈ declaration.spellings, spelling ∉ mentioned before) →
              ∀ earlier ∈ mentioned before, grammar.flagId? earlier ≠ some id)) ∧
      ∀ id flag, grammar.flags[id]? = some flag →
        (∀ spelling ∈ flag.spellings, grammar.flagId? spelling = some id) ∧
        flag.DescribedBy (about declarations flag) ∧
        flag.group = flag.explicitGroup.or (if flag.repeatable then none else some flag.canonical) := by
  refine ⟨exists_reads_of_compile h, fun declarations reads => ?_⟩
  obtain ⟨draft, compiled, agrees⟩ := reads.exists_compile
  obtain rfl : draft.grammar = grammar := Except.ok.inj (compiled.symm.trans h)
  refine ⟨fun count => ?_, ?_, fun id flag here => ⟨fun spelling => flagId?_of_mem h here, ?_, ?_⟩⟩
  · obtain ⟨sofar, before, early⟩ := (reads.take count).exists_compile
    refine ⟨_, before, fun spelling => ?_⟩
    split
    next named =>
      cases bound : sofar.grammar.flagId? spelling with
      | none => exact absurd named (early.flagId?_eq_none_iff.mp bound)
      | some id => rw [flagId?_take h before bound]
    next unnamed => exact early.flagId?_eq_none_iff.mpr unnamed
  · rintro before declaration after rfl ⟨new, named, unmentioned⟩
    have free := reads.free
    rw [List.append_nil] at free
    have later : (before ++ declaration :: after).reverse =
        after.reverse ++ (declaration :: before.reverse) := by simp
    rw [later] at agrees
    simpa using agrees.bound_together free named (by simpa using unmentioned)
  · have described := agrees.flags flag (List.mem_of_getElem? here)
    rwa [List.reverse_reverse] at described
  · unfold Flag.group
    cases flag.explicitGroup <;> rfl

/-- The third token names the set of the first; the fourth overrides the actions and keeps the group. -/
theorem redeclaration_named_set :
    let tokens := ["+s", "\x7b-a,--all\x7d:x", "(g)*\x7b@s\x7d", "\x7b--all,--every\x7d:y:z", "-b"]
    let merged : Flag :=
      { canonical := "-a", aliases := ["--all", "--every"], explicitGroup := some "g",
        chain := ⟨[.state "y", .state "z"], none⟩, repeatable := true }
    ∃ grammar declarations, Grammar.compile tokens = .ok grammar ∧
      grammar.flags = [merged, { canonical := "-b" }] ∧ Reads [] tokens declarations ∧
      merged.DescribedBy (about declarations merged) ∧
      ∀ spelling ∈ merged.spellings, grammar.flagId? spelling = some 0 := by
  intro tokens merged
  have compiled : Grammar.compile tokens = .ok _ := rfl
  obtain ⟨⟨declarations, reads⟩, meaning⟩ := redeclaration compiled
  obtain ⟨-, -, flags⟩ := meaning declarations reads
  obtain ⟨bound, described, -⟩ := flags 0 merged rfl
  exact ⟨_, declarations, compiled, rfl, reads, described, bound⟩

end ShellCompletion
