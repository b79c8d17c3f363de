import ShellCompletion.Dispatch
import ShellCompletion.Grammar.Compile
import ShellCompletion.Proofs.Grammar.WellFormed
import ShellCompletion.Proofs.Line.Parse

/-!
# Mutual exclusion

A parse excludes the groups of the flags that were typed, except of those that may be repeated and of
those spelled out at the cursor (`mem_excluded_iff`). Where flags are offered, all spellings that fit and
are not excluded are offered, and no others (`exclusion_exact`).
-/

namespace ShellCompletion

namespace Grammar

/-- The word is no spelling itself, and one of the letters after its dash names the flag. -/
def Bundles (grammar : Grammar) (word : String) (flag : Flag) : Prop :=
  grammar.flag? word = none ∧ ¬ ['-', '-'] <+: word.toList ∧
    ∃ letter ∈ word.toList.drop 1, grammar.flag? (String.ofList ['-', letter]) = some flag

variable {grammar : Grammar} {words : List String} {cursor : Nat}

/-! ### The flags of a word and their groups -/

theorem mem_typedFlags {word : String} {typed : TypedFlag} :
    typed ∈ grammar.typedFlags word ↔
      grammar.flag? word = some typed.flag ∧ typed.short = isShort word ∨
        grammar.Bundles word typed.flag ∧ typed.short = true := by
  obtain ⟨flag, short⟩ := typed
  unfold typedFlags Bundles
  split
  next other _ found => simp [found, eq_comm]
  next absent dashed => simp [absent, dashed]
  next letters absent single =>
    have notDouble : ¬ ['-', '-'] <+: word.toList := by
      rintro ⟨rest, split⟩
      exact single rest split.symm
    simp only [absent, reduceCtorEq, false_and, false_or, notDouble, not_false_eq_true, true_and,
      List.mem_filterMap, Option.map_eq_some_iff, TypedFlag.mk.injEq]
    constructor
    · rintro ⟨letter, inside, other, found, rfl, rfl⟩
      exact ⟨⟨letter, inside, found⟩, rfl⟩
    · rintro ⟨⟨letter, inside, found⟩, rfl⟩
      exact ⟨letter, inside, flag, found, rfl, rfl⟩

theorem mem_of_typed {word : String} {typed : TypedFlag} (named : typed ∈ grammar.typedFlags word) :
    typed.flag ∈ grammar.flags := by
  rcases mem_typedFlags.mp named with ⟨whole, -⟩ | ⟨⟨-, -, letter, -, found⟩, -⟩
  · exact (mem_of_flag? whole).1
  · exact (mem_of_flag? found).1

theorem mem_rivals {flag : Flag} {spelling : String} (member : flag ∈ grammar.flags) :
    spelling ∈ grammar.rivals flag ↔
      ∃ group, flag.group.bind grammar.group? = some group ∧ spelling ∈ group.members := by
  unfold rivals
  cases marked : flag.group with
  | none => simp
  | some id =>
    have known : id ∈ grammar.groupIds := by
      rw [groupIds, Names.mem_ofList]
      exact List.mem_filterMap.mpr ⟨flag, member, marked⟩
    simp [group?, known]

/-- A spelling is excluded by the words that name a flag of its group. At the cursor only a short
spelling or a bundle counts. -/
theorem mem_excluded_iff {spelling : String} :
    spelling ∈ (grammar.parse words cursor).excluded ↔
      ∃ index word flag group, words[index]? = some word ∧
        (grammar.parse words cursor).role? index = some .flag ∧
        (grammar.flag? word = some flag ∧ (index = cursor → isShort word = true) ∨
          grammar.Bundles word flag) ∧
        flag.repeatable = false ∧
        flag.group.bind grammar.group? = some group ∧ spelling ∈ group.members := by
  rw [mem_excluded]
  constructor
  · rintro ⟨index, reading, read, spent⟩
    obtain ⟨typed, named, single, short, rival⟩ := mem_spent.mp spent
    obtain ⟨word, found, role, resolved⟩ := (typed_reading_iff cursor).mp ⟨reading, read, named⟩
    obtain ⟨group, grouped, inside⟩ := (mem_rivals (mem_of_typed resolved)).mp rival
    refine ⟨index, word, typed.flag, group, found, role, ?_, single, grouped, inside⟩
    rcases mem_typedFlags.mp resolved with ⟨whole, same⟩ | ⟨bundled, -⟩
    · exact .inl ⟨whole, fun here => same ▸ short (beq_iff_eq.mpr here)⟩
    · exact .inr bundled
  · rintro ⟨index, word, flag, group, found, role, named, single, grouped, inside⟩
    have typed : ∃ short, ⟨flag, short⟩ ∈ grammar.typedFlags word ∧ (index = cursor → short = true) := by
      rcases named with ⟨whole, short⟩ | bundled
      · exact ⟨isShort word, mem_typedFlags.mpr (.inl ⟨whole, rfl⟩), short⟩
      · exact ⟨true, mem_typedFlags.mpr (.inr ⟨bundled, rfl⟩), fun _ => rfl⟩
    obtain ⟨short, resolved, atCursor⟩ := typed
    obtain ⟨reading, read, member⟩ := (typed_reading_iff cursor).mpr ⟨word, found, role, resolved⟩
    refine ⟨index, reading, read, mem_spent.mpr ⟨_, member, single, ?_, ?_⟩⟩
    · exact fun here => atCursor (beq_iff_eq.mp here)
    · exact (mem_rivals (mem_of_typed resolved)).mpr ⟨group, grouped, inside⟩

/-! ### What is offered -/

theorem mem_eligible {parse : Parse} {spelling : String} :
    spelling ∈ grammar.eligible parse ↔
      spelling ∈ grammar.spellings ∧ parse.current.toList <+: spelling.toList ∧
        spelling ∉ parse.excluded := by
  rw [eligible, Policy.mem_select, Policy.fits, Policy.beginsWith_iff, List.mem_filter]
  simp only [decide_eq_true_eq, and_assoc]
  exact and_congr_right' and_comm

theorem complete_eligible {σ : Type} (registry : Registry σ) (hops : Nat)
    (offers : (grammar.parse words cursor).role? cursor = some .flag ∨
      (grammar.parse words cursor).role? cursor = some .positional ∧ words[cursor]? = some "-") :
    registry.complete hops grammar words cursor = pure (grammar.eligible (grammar.parse words cursor)) := by
  have dispatched : registry.dispatch grammar (grammar.parse words cursor) words =
      pure (.suggestions (grammar.eligible (grammar.parse words cursor))) := by
    rcases offers with flag | ⟨bare, dash⟩
    · have other : Registry.wantsFlags (grammar.parse words cursor) = false := by
        show (_ && (grammar.parse words cursor).role? cursor == some .positional) = false
        rw [flag]
        exact Bool.and_false _
      have literal : (grammar.parse words cursor).action = .literal := by
        show (((grammar.parse words cursor).class? cursor).map (·.action)).getD .literal = .literal
        rw [class?_of_flag flag]
        rfl
      rw [Registry.dispatch, other, literal]
      rfl
    · have wanted : Registry.wantsFlags (grammar.parse words cursor) = true := by
        show ((words[cursor]?.getD "").toList.head? == some '-' &&
          (grammar.parse words cursor).role? cursor == some .positional) = true
        rw [bare, dash]
        rfl
      rw [Registry.dispatch, if_pos wanted]
  rw [Registry.complete, Registry.suggest, dispatched, pure_bind]
  cases hops <;> rfl

/-- The spellings excluded are those of the groups of the flags typed, repeatable flags and flags
spelled out at the cursor apart; and at a flag, or at a dash where a positional word is expected, every
registry offers the spellings that begin with the typed text and are not excluded. -/
theorem exclusion_exact (grammar : Grammar) (words : List String) (cursor : Nat) :
    let parse := grammar.parse words cursor
    (∀ spelling, spelling ∈ parse.excluded ↔
      ∃ index word flag group, words[index]? = some word ∧ parse.role? index = some .flag ∧
        (grammar.flag? word = some flag ∧ (index = cursor → isShort word = true) ∨
          grammar.Bundles word flag) ∧
        flag.repeatable = false ∧
        flag.group.bind grammar.group? = some group ∧ spelling ∈ group.members) ∧
    ∀ {σ : Type} (registry : Registry σ) (hops : Nat) (typed : String), words[cursor]? = some typed →
      parse.role? cursor = some .flag ∨ parse.role? cursor = some .positional ∧ typed = "-" →
      ∃ items, registry.complete hops grammar words cursor = pure items ∧ Names.Ascending items ∧
        ∀ spelling, spelling ∈ items ↔
          spelling ∈ grammar.spellings ∧ typed.toList <+: spelling.toList ∧ spelling ∉ parse.excluded := by
  intro parse
  refine ⟨fun spelling => mem_excluded_iff, fun registry hops typed found offers => ?_⟩
  have current : parse.current = typed := by
    show words[cursor]?.getD "" = typed
    rw [found, Option.getD_some]
  refine ⟨_, complete_eligible registry hops ?_, Policy.ascending_select .., fun spelling => ?_⟩
  · exact offers.imp_right fun ⟨bare, dash⟩ => ⟨bare, dash ▸ found⟩
  · rw [mem_eligible, current]

theorem exclusion_exact_dash :
    let grammar : Grammar :=
      { flags := [{ canonical := "-i", explicitGroup := some "mode" },
          { canonical := "-u", explicitGroup := some "mode" }, { canonical := "-v", repeatable := true }] }
    let words := ["run", "-iv", "-"]
    let parse := grammar.parse words 2
    compile ["(mode)-i", "(mode)-u", "*-v"] = .ok grammar ∧
      parse.role? 2 = some .positional ∧ parse.excluded = ["-i", "-u"] ∧
      ∀ {σ : Type} (registry : Registry σ) (hops : Nat),
        ∃ items, registry.complete hops grammar words 2 = pure items ∧ Names.Ascending items ∧
          ∀ spelling, spelling ∈ items ↔
            spelling ∈ grammar.spellings ∧ "-".toList <+: spelling.toList ∧ spelling ∉ parse.excluded := by
  intro grammar words parse
  have bare : parse.role? 2 = some .positional := rfl
  obtain ⟨-, offered⟩ := exclusion_exact grammar words 2
  exact ⟨rfl, bare, rfl, fun registry hops => offered registry hops "-" rfl (.inr ⟨bare, rfl⟩)⟩

end Grammar

end ShellCompletion
