import ShellCompletion.Proofs.Grammar.Tables
import ShellCompletion.Proofs.Line.Exclusion

/-!
# The own groups of flags

A flag that may not be repeated and has no explicit mark is in a group of its own, which goes by its
canonical spelling. Explicit ids are free text, so another flag can be put into that group by a mark, and
by nothing else (`group_shared_iff`). A flag that nobody is put to is taken out of the suggestions by
itself alone (`own_group`).
-/

namespace ShellCompletion

/-- The flag has a group only because it may not be repeated. -/
def Flag.SelfExcluding (flag : Flag) : Prop := flag.explicitGroup = none ∧ flag.repeatable = false

theorem Flag.SelfExcluding.group {flag : Flag} (own : flag.SelfExcluding) :
    flag.group = some flag.canonical :=
  Flag.group_eq_some_iff.mpr (.inr ⟨own.1, own.2, rfl⟩)

namespace Grammar

/-- A word of the line names the flag, and uses it up for the word at the cursor. -/
def Spends (grammar : Grammar) (words : List String) (cursor : Nat) (flag : Flag) : Prop :=
  flag.repeatable = false ∧ ∃ index word, words[index]? = some word ∧
    (grammar.parse words cursor).role? index = some .flag ∧
    (grammar.flag? word = some flag ∧ (index = cursor → isShort word = true) ∨ grammar.Bundles word flag)

variable {grammar : Grammar} {first second flag other : Flag} {id spelling : String} {words : List String}
  {cursor : Nat}

theorem Spends.member (spends : grammar.Spends words cursor flag) : flag ∈ grammar.flags := by
  obtain ⟨-, index, word, -, -, ⟨whole, -⟩ | ⟨-, -, letter, -, found⟩⟩ := spends
  · exact (mem_of_flag? whole).1
  · exact (mem_of_flag? found).1

theorem excluded_iff_spends : spelling ∈ (grammar.parse words cursor).excluded ↔
    ∃ flag id, grammar.Spends words cursor flag ∧ flag.group = some id ∧ spelling ∈ grammar.members id := by
  rw [mem_excluded_iff]
  constructor
  · rintro ⟨index, word, flag, group, found, role, named, single, grouped, inside⟩
    obtain ⟨id, marked, known⟩ := Option.bind_eq_some_iff.mp grouped
    obtain ⟨-, rfl⟩ := group?_eq_some_iff.mp known
    exact ⟨flag, id, ⟨single, index, word, found, role, named⟩, marked, inside⟩
  · rintro ⟨flag, id, spends, marked, inside⟩
    have known := group?_eq_some_iff.mpr ⟨⟨flag, spends.member, marked⟩, rfl⟩
    have grouped := Option.bind_eq_some_iff.mpr ⟨id, marked, known⟩
    obtain ⟨single, index, word, found, role, named⟩ := spends
    exact ⟨index, word, flag, _, found, role, named, single, grouped, inside⟩

section Apart

variable (apart : grammar.flags.Pairwise Flag.Apart)

include apart

theorem eq_of_canonical (left : first ∈ grammar.flags) (right : second ∈ grammar.flags)
    (same : first.canonical = second.canonical) : first = second :=
  eq_of_shared apart left right (List.mem_cons_self ..) (same ▸ List.mem_cons_self ..)

/-- Two flags are in one group if both are marked with it, or if one of them is marked with the
canonical spelling of the other, which has no mark itself. -/
theorem group_shared_iff (left : first ∈ grammar.flags) (right : second ∈ grammar.flags)
    (different : first ≠ second) :
    first.group = some id ∧ second.group = some id ↔
      first.explicitGroup = some id ∧ second.explicitGroup = some id ∨
      first.explicitGroup = some id ∧ second.SelfExcluding ∧ second.canonical = id ∨
      second.explicitGroup = some id ∧ first.SelfExcluding ∧ first.canonical = id := by
  constructor
  · rintro ⟨grouped, groupedToo⟩
    rcases Flag.group_eq_some_iff.mp grouped with marked | ⟨plain, single, own⟩
    · rcases Flag.group_eq_some_iff.mp groupedToo with markedToo | ⟨plainToo, singleToo, ownToo⟩
      · exact .inl ⟨marked, markedToo⟩
      · exact .inr (.inl ⟨marked, ⟨plainToo, singleToo⟩, ownToo⟩)
    · rcases Flag.group_eq_some_iff.mp groupedToo with markedToo | ⟨-, -, ownToo⟩
      · exact .inr (.inr ⟨markedToo, ⟨plain, single⟩, own⟩)
      · exact absurd (eq_of_canonical apart left right (own.trans ownToo.symm)) different
  · rintro (⟨marked, markedToo⟩ | ⟨marked, own, rfl⟩ | ⟨marked, own, rfl⟩)
    · exact ⟨Flag.group_eq_some_iff.mpr (.inl marked), Flag.group_eq_some_iff.mpr (.inl markedToo)⟩
    · exact ⟨Flag.group_eq_some_iff.mpr (.inl marked), own.group⟩
    · exact ⟨own.group, Flag.group_eq_some_iff.mpr (.inl marked)⟩

theorem group_eq_own_iff (member : flag ∈ grammar.flags) (own : flag.SelfExcluding)
    (beside : other ∈ grammar.flags) :
    other.group = some flag.canonical ↔ other = flag ∨ other.explicitGroup = some flag.canonical := by
  rw [Flag.group_eq_some_iff]
  constructor
  · rintro (marked | ⟨-, -, same⟩)
    · exact .inr marked
    · exact .inl (eq_of_canonical apart beside member same)
  · rintro (rfl | marked)
    · exact .inr ⟨own.1, own.2, rfl⟩
    · exact .inl marked

theorem mem_members_own (member : flag ∈ grammar.flags) (own : flag.SelfExcluding) :
    spelling ∈ grammar.members flag.canonical ↔ spelling ∈ flag.spellings ∨
      ∃ other ∈ grammar.flags, other.explicitGroup = some flag.canonical ∧ spelling ∈ other.spellings := by
  rw [mem_members]
  constructor
  · rintro ⟨other, beside, grouped, mine⟩
    rcases (group_eq_own_iff apart member own beside).mp grouped with rfl | marked
    · exact .inl mine
    · exact .inr ⟨other, beside, marked, mine⟩
  · rintro (mine | ⟨other, beside, marked, mine⟩)
    · exact ⟨flag, member, own.group, mine⟩
    · exact ⟨other, beside, (group_eq_own_iff apart member own beside).mpr (.inr marked), mine⟩

theorem members_own_iff (member : flag ∈ grammar.flags) (own : flag.SelfExcluding) :
    (∀ spelling, spelling ∈ grammar.members flag.canonical ↔ spelling ∈ flag.spellings) ↔
      ∀ other ∈ grammar.flags, other.explicitGroup ≠ some flag.canonical := by
  constructor
  · intro alone other beside marked
    have mine : other.canonical ∈ other.spellings := List.mem_cons_self ..
    have inside := (mem_members_own apart member own).mpr (.inr ⟨other, beside, marked, mine⟩)
    obtain rfl := eq_of_shared apart beside member mine ((alone _).mp inside)
    rw [own.1] at marked
    cases marked
  · intro unmarked spelling
    rw [mem_members_own apart member own, or_iff_left]
    rintro ⟨other, beside, marked, -⟩
    exact unmarked other beside marked

theorem excluded_own_iff (member : flag ∈ grammar.flags) (own : flag.SelfExcluding)
    (mine : spelling ∈ flag.spellings) :
    spelling ∈ (grammar.parse words cursor).excluded ↔
      ∃ other, grammar.Spends words cursor other ∧
        (other = flag ∨ other.explicitGroup = some flag.canonical) := by
  rw [excluded_iff_spends]
  constructor
  · rintro ⟨other, id, spends, grouped, inside⟩
    obtain ⟨third, inGroup, thirdGrouped, shared⟩ := mem_members.mp inside
    obtain rfl := eq_of_shared apart inGroup member shared mine
    obtain rfl : third.canonical = id := Option.some.inj (own.group.symm.trans thirdGrouped)
    exact ⟨other, spends, (group_eq_own_iff apart member own spends.member).mp grouped⟩
  · rintro ⟨other, spends, related⟩
    have grouped := (group_eq_own_iff apart member own spends.member).mpr related
    exact ⟨other, flag.canonical, spends, grouped, mem_members.mpr ⟨flag, member, own.group, mine⟩⟩

end Apart

end Grammar

/-- Of two flags in one group at least one was put there by an explicit mark, the last that is given to
it; so was the other, unless it has no mark and the id is its canonical spelling. The own group of a flag
holds nothing but its own spellings exactly if no flag is marked with its canonical spelling, and then no
other flag takes it out of the suggestions. -/
theorem own_group {tokens : List String} {grammar : Grammar} (h : Grammar.compile tokens = .ok grammar) :
    (∃ declarations, Reads [] tokens declarations) ∧
    (∀ declarations, Reads [] tokens declarations → ∀ flag ∈ grammar.flags,
      flag.explicitGroup = ((about declarations flag).filterMap (·.group)).getLast?) ∧
    (∀ first ∈ grammar.flags, ∀ second ∈ grammar.flags, first ≠ second → ∀ id,
      first.group = some id ∧ second.group = some id ↔
        first.explicitGroup = some id ∧ second.explicitGroup = some id ∨
        first.explicitGroup = some id ∧ second.SelfExcluding ∧ second.canonical = id ∨
        second.explicitGroup = some id ∧ first.SelfExcluding ∧ first.canonical = id) ∧
    ∀ flag ∈ grammar.flags, flag.SelfExcluding →
      ∃ group, grammar.groupOf? flag.canonical = some group ∧ group.id = flag.canonical ∧
        (∀ spelling, spelling ∈ group.members ↔ spelling ∈ flag.spellings ∨ ∃ other ∈ grammar.flags,
          other.explicitGroup = some flag.canonical ∧ spelling ∈ other.spellings) ∧
        ((∀ spelling, spelling ∈ group.members ↔ spelling ∈ flag.spellings) ↔
          ∀ other ∈ grammar.flags, other.explicitGroup ≠ some flag.canonical) ∧
        ∀ words cursor, ∀ spelling ∈ flag.spellings,
          (spelling ∈ (grammar.parse words cursor).excluded ↔
            ∃ other, grammar.Spends words cursor other ∧
              (other = flag ∨ other.explicitGroup = some flag.canonical)) ∧
          ((∀ other ∈ grammar.flags, other.explicitGroup ≠ some flag.canonical) →
            (spelling ∈ (grammar.parse words cursor).excluded ↔ grammar.Spends words cursor flag)) := by
  have apart := (compile_wellFormed h).apart
  refine ⟨exists_reads_of_compile h, fun declarations reads flag member => ?_,
    fun first left second right different id => Grammar.group_shared_iff apart left right different,
    fun flag member own => ?_⟩
  · obtain ⟨draft, compiled, agrees⟩ := reads.exists_compile
    obtain rfl : draft.grammar = grammar := Except.ok.inj (compiled.symm.trans h)
    have described := agrees.flags flag member
    rw [List.reverse_reverse] at described
    exact described.explicitGroup
  · have grouped := Grammar.groupOf?_of_mem apart member (List.mem_cons_self ..) own.group
    refine ⟨_, grouped, rfl, fun spelling => Grammar.mem_members_own apart member own,
      Grammar.members_own_iff apart member own, fun words cursor spelling mine => ?_⟩
    have excluded : spelling ∈ (grammar.parse words cursor).excluded ↔ _ :=
      Grammar.excluded_own_iff apart member own mine
    refine ⟨excluded, fun unmarked => excluded.trans ⟨?_, fun spends => ⟨flag, spends, .inl rfl⟩⟩⟩
    rintro ⟨other, spends, rfl | marked⟩
    · exact spends
    · exact absurd marked (unmarked other spends.member)

/-- The first flag is alone in its own group, the second shares its own with the third. -/
theorem own_group_of_alias :
    let quiet : Flag := { canonical := "-q", aliases := ["--quiet"] }
    let grammar : Grammar :=
      { flags := [quiet, { canonical := "-a" }, { canonical := "-b", explicitGroup := some "-a" }] }
    Grammar.compile ["\x7b-q,--quiet\x7d", "-a", "(-a)-b"] = .ok grammar ∧ quiet.SelfExcluding ∧
      (∃ group, grammar.groupOf? "-q" = some group ∧
        ∀ spelling, spelling ∈ group.members ↔ spelling ∈ quiet.spellings) ∧
      ∀ words cursor,
        "--quiet" ∈ (grammar.parse words cursor).excluded ↔ grammar.Spends words cursor quiet := by
  intro quiet grammar
  have compiled : Grammar.compile ["\x7b-q,--quiet\x7d", "-a", "(-a)-b"] = .ok grammar := rfl
  have own : quiet.SelfExcluding := ⟨rfl, rfl⟩
  have unmarked : ∀ other ∈ grammar.flags, other.explicitGroup ≠ some quiet.canonical := by decide
  obtain ⟨-, -, -, owned⟩ := own_group compiled
  obtain ⟨group, grouped, -, -, alone, excludes⟩ := owned quiet (List.mem_cons_self ..) own
  refine ⟨compiled, own, ⟨group, grouped, alone.mpr unmarked⟩, fun words cursor => ?_⟩
  obtain ⟨-, spent⟩ := excludes words cursor "--quiet" (by decide)
  exact spent unmarked

/-- The id of an explicit mark is taken for the own group of another flag. -/
theorem own_group_shared :
    let first : Flag := { canonical := "-a" }
    let second : Flag := { canonical := "-b", explicitGroup := some "-a" }
    let grammar : Grammar := { flags := [first, second] }
    let words := ["tool", "-b", "-"]
    Grammar.compile ["-a", "(-a)-b"] = .ok grammar ∧ first.SelfExcluding ∧
      first.group = some "-a" ∧ second.group = some "-a" ∧
      grammar.groupOf? "-a" = some ⟨"-a", ["-a", "-b"], false⟩ ∧
      ¬ grammar.Spends words 2 first ∧ "-a" ∈ (grammar.parse words 2).excluded ∧
      ∀ {σ : Type} (registry : Registry σ) (hops : Nat),
        registry.complete hops grammar words 2 = pure [] := by
  intro first second grammar words
  have spelled : grammar.flag? "-b" = some second := by decide
  have nothing : grammar.eligible (grammar.parse words 2) = [] := by decide
  have untouched : ¬ grammar.Spends words 2 first := by
    rintro ⟨-, index, word, found, role, named⟩
    -- Only the word `-b` is a flag, and it names the second one.
    obtain rfl : index = 1 := by
      match index, found, role with
      | 0, _, command => exact absurd command (by decide)
      | 1, _, _ => rfl
      | 2, _, positional => exact absurd positional (by decide)
      | _ + 3, beyond, _ => cases beyond
    obtain rfl : "-b" = word := Option.some.inj found
    rcases named with ⟨whole, -⟩ | ⟨absent, -⟩
    · exact absurd (spelled.symm.trans whole) (by decide)
    · exact absurd (spelled.symm.trans absent) nofun
  refine ⟨rfl, ⟨rfl, rfl⟩, rfl, rfl, by decide, untouched, by decide, fun registry hops => ?_⟩
  rw [Grammar.complete_eligible registry hops (.inr ⟨by decide, rfl⟩), nothing]

end ShellCompletion
