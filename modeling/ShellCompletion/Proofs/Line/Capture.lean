import ShellCompletion.Proofs.Line.Exclusion

/-!
# Where words end up

A word that is an argument stands in the block of the last word before it that is none. The words of a
line are shared out by that opening word: to the positional words, or to the flag that takes arguments
last among those it names (`capture_exact`).
-/

namespace ShellCompletion

/-- The word that opens the block of the word at `index`: the last one up to there that is no argument. -/
def Parse.opener (parse : Parse) : Nat → Nat
  | 0 => 0
  | index + 1 => if parse.role? (index + 1) = some .argument then parse.opener index else index + 1

/-- The word at `index` is positional or an argument of a positional word. -/
def Parse.InLine (parse : Parse) (index : Nat) : Prop :=
  parse.role? index = some .positional ∨
    parse.role? index = some .argument ∧ parse.role? (parse.opener index) = some .positional
deriving Decidable

/-- The words at the chosen indices, in order. -/
def wordsAt (words : List String) (chosen : Nat → Prop) [DecidablePred chosen] : List String :=
  (words.zipIdx.filter fun (_, index) => chosen index).map (·.1)

namespace Grammar

/-- The flag that the word at `index` opens a block for. -/
def opens? (grammar : Grammar) (words : List String) (cursor index : Nat) : Option Flag :=
  if (grammar.parse words cursor).role? index = some .flag then
    words[index]?.bind fun word => lastTaker? (grammar.typedFlags word)
  else none

/-- The flag in whose block the word at `index` is an argument. -/
def captor? (grammar : Grammar) (words : List String) (cursor index : Nat) : Option Flag :=
  let parse := grammar.parse words cursor
  if parse.role? index = some .argument then grammar.opens? words cursor (parse.opener index) else none

end Grammar

/-! ### Owners -/

theorem opener_argument {parse : Parse} {index : Nat} (argument : parse.role? (index + 1) = some .argument) :
    parse.opener (index + 1) = parse.opener index := if_pos argument

theorem opener_other {parse : Parse} {index : Nat} (other : parse.role? (index + 1) ≠ some .argument) :
    parse.opener (index + 1) = index + 1 := if_neg other

namespace Expectation

variable {grammar : Grammar} {expected : Expectation} {word : String}

theorem read_argument (argument : (expected.read grammar word).1.wordClass.role = .argument) :
    expected.chain ≠ {} ∧ (∃ action, (expected.read grammar word).1 = .argument action expected.owner) ∧
      (expected.read grammar word).2.owner = expected.owner := by
  rcases owed_cases expected word with
    ⟨action, fixed, tail, owed⟩ | ⟨owed, dashed⟩ | ⟨action, owed, bare⟩ | ⟨owed, bare⟩
  · rw [read_fixed owed, owed]
    exact ⟨by simp, ⟨action, rfl⟩, rfl⟩
  · rw [role_read_eq_flag_iff.mpr ⟨owed, dashed⟩] at argument
    cases argument
  · rw [read_tail owed bare, owed]
    exact ⟨by simp, ⟨action, rfl⟩, rfl⟩
  · rw [role_read_eq_positional_iff.mpr ⟨owed, bare⟩] at argument
    cases argument

theorem role_read_ne_command : (expected.read grammar word).1.wordClass.role ≠ .command := by
  rw [role_read]
  split
  · exact nofun
  · split
    · exact nofun
    · split <;> exact nofun

end Expectation

namespace Grammar

variable {grammar : Grammar} {words : List String} {cursor index : Nat} {word : String}

theorem owner_of_flags (found : words[index + 1]? = some word)
    (opens : (grammar.parse words cursor).role? (index + 1) = some .flag)
    (owes : (grammar.expectation (words.take (index + 2))).chain ≠ {}) :
    ∃ flag, (grammar.expectation (words.take (index + 2))).owner = some flag ∧
      grammar.opens? words cursor (index + 1) = some flag := by
  have role := opens
  rw [role?_succ found, Option.some_inj, Expectation.role_read_eq_flag_iff] at role
  obtain ⟨before, read⟩ := @Expectation.read_dashed grammar _ _ role.1 role.2
  rw [expectation_succ grammar found, read, Expectation.afterFlags_eq] at owes ⊢
  rw [opens?, if_pos opens, found, Option.bind_some]
  cases taker : lastTaker? (grammar.typedFlags word) with
  | none => rw [taker] at owes; exact absurd rfl owes
  | some flag => exact ⟨flag, rfl, rfl⟩

theorem owner_of_positional (found : words[index + 1]? = some word)
    (opens : (grammar.parse words cursor).role? (index + 1) = some .positional)
    (owes : (grammar.expectation (words.take (index + 2))).chain ≠ {}) :
    (grammar.expectation (words.take (index + 2))).owner = none := by
  rw [role?_succ found, Option.some_inj, Expectation.role_read_eq_positional_iff] at opens
  rw [expectation_succ grammar found, Expectation.read_bare opens.1 opens.2, Expectation.fill] at owes ⊢
  split at owes
  next => exact absurd opens.1 owes
  next slot later cut => rw [cut]

/-- What is still owed is owed to the flag of the opening word, or to no flag if that word is positional. -/
theorem owner_expectation (typed : index < words.length)
    (owes : (grammar.expectation (words.take (index + 1))).chain ≠ {}) :
    let parse := grammar.parse words cursor
    let owner := (grammar.expectation (words.take (index + 1))).owner
    owner = grammar.opens? words cursor (parse.opener index) ∧
      (owner = none ↔ parse.role? (parse.opener index) = some .positional) := by
  intro parse
  induction index with
  | zero => exact absurd rfl (expectation_one grammar words ▸ owes)
  | succ index ih =>
    have found : words[index + 1]? = some words[index + 1] := List.getElem?_eq_getElem typed
    have role : parse.role? (index + 1) = _ := role?_succ found
    intro owner
    cases reads : ((grammar.expectation (words.take (index + 1))).read grammar
        words[index + 1]).1.wordClass.role with
    | command => exact absurd reads Expectation.role_read_ne_command
    | argument =>
      -- An argument stays in the block that the words before it left open.
      obtain ⟨before, -, kept⟩ := Expectation.read_argument reads
      have same : owner = (grammar.expectation (words.take (index + 1))).owner := by
        rw [← kept, ← expectation_succ grammar found]
      rw [same, opener_argument (role.trans (congrArg some reads))]
      exact ih (Nat.lt_of_succ_lt typed) before
    | flag =>
      rw [reads] at role
      obtain ⟨flag, owns, opened⟩ := owner_of_flags found role owes
      rw [opener_other (by rw [role]; exact nofun), opened, role]
      exact ⟨owns, by simp [owner, owns]⟩
    | positional =>
      rw [reads] at role
      have owns : owner = none := owner_of_positional found role owes
      rw [opener_other (by rw [role]; exact nofun), opens?, if_neg (by rw [role]; exact nofun), role]
      exact ⟨owns, by simp [owns]⟩

/-- Whose a word is according to its reading is told by its role and the word that opens its block. -/
theorem owner?_reading {reading : Reading} (read : (grammar.readings words)[index]? = some reading) :
    reading.owner? = grammar.captor? words cursor index ∧
      (reading.isText = true ↔ (grammar.parse words cursor).InLine index) := by
  obtain ⟨inside, -⟩ := List.getElem?_eq_some_iff.mp read
  have typed : index < words.length := by simpa using inside
  have role : (grammar.parse words cursor).role? index = some reading.wordClass.role :=
    role?_of_reading read
  unfold captor? Parse.InLine
  dsimp only
  cases reading with
  | command => simp [role, Reading.wordClass, Reading.owner?, Reading.isText]
  | flags => simp [role, Reading.wordClass, Reading.owner?, Reading.isText]
  | positional => simp [role, Reading.wordClass, Reading.owner?, Reading.isText]
  | argument action owner =>
    obtain ⟨before, rfl⟩ : ∃ before, index = before + 1 := by
      cases index with
      | zero =>
        rw [readings_zero, List.getElem?_eq_getElem typed] at read
        cases read
      | succ before => exact ⟨before, rfl⟩
    have argument : (grammar.parse words cursor).role? (before + 1) = some .argument := role
    rw [readings_succ, List.getElem?_eq_getElem typed, Option.map_some, Option.some_inj] at read
    obtain ⟨owes, ⟨_, reads⟩, -⟩ := Expectation.read_argument (congrArg (·.wordClass.role) read)
    obtain ⟨-, owns⟩ := Reading.argument.inj (read.symm.trans reads)
    obtain ⟨opened, positional⟩ := @owner_expectation grammar words cursor before (by omega) owes
    rw [← owns] at opened positional
    rw [opener_argument argument, if_pos argument, argument]
    refine ⟨opened, ?_⟩
    cases owner <;> simp [Reading.isText, ← positional]

/-! ### What is gathered -/

theorem map_filter_zip {α : Type} {items : List α} (picked : α → Bool) (chosen : Nat → Prop)
    [DecidablePred chosen] (start : Nat) (even : items.length = words.length)
    (same : ∀ index item, items[index]? = some item → (picked item = true ↔ chosen (start + index))) :
    ((items.zip words).filter (picked ·.1)).map (·.2) =
      ((words.zipIdx start).filter fun (_, index) => chosen index).map (·.1) := by
  induction words generalizing items start with
  | nil => simp
  | cons word rest ih =>
    cases items with
    | nil => cases even
    | cons item items =>
      have first : picked item = true ↔ chosen start := same 0 item rfl
      have others := @ih items (start + 1) (Nat.succ.inj even) fun index other found => by
        rw [Nat.add_right_comm]
        exact same (index + 1) other found
      rw [List.zip_cons_cons, List.zipIdx_cons, List.filter_cons, List.filter_cons]
      by_cases here : chosen start
      · simp [first.mpr here, here, others]
      · simp [mt first.mp here, here, others]

theorem line_eq_wordsAt :
    (grammar.parse words cursor).line = wordsAt words (grammar.parse words cursor).InLine := by
  refine map_filter_zip Reading.isText _ 0 (length_readings grammar words) fun index reading read => ?_
  rw [Nat.zero_add]
  exact (owner?_reading read).2

theorem lookup_map_self {α : Type} (keys : List String) (content : String → α) (key : String) :
    (keys.map fun key => (key, content key)).lookup key =
      if key ∈ keys then some (content key) else none := by
  induction keys with
  | nil => rfl
  | cons first rest ih =>
    rw [List.map_cons, List.lookup_cons, ih]
    by_cases same : key = first
    · simp [same]
    · simp [same, beq_false_of_ne same]

theorem owned_iff {reading : Reading} {spelling : String} :
    (reading.owner?.map Flag.spellings).any (spelling ∈ ·) = true ↔
      ∃ flag, reading.owner? = some flag ∧ spelling ∈ flag.spellings := by
  cases reading.owner? <;> simp

theorem captured_eq_map_filter (spelling : String) (read : List (Reading × String)) :
    captured spelling read =
      (read.filter fun entry => (entry.1.owner?.map Flag.spellings).any (spelling ∈ ·)).map (·.2) := by
  rw [← List.filterMap_eq_map, List.filterMap_filter]
  rfl

/-- A spelling without an entry has captured nothing. -/
theorem values_parse (spelling : String) :
    (grammar.parse words cursor).values spelling =
      captured spelling ((grammar.readings words).zip words) := by
  unfold Parse.values parse
  dsimp only
  rw [lookup_map_self]
  split
  next => rfl
  next absent =>
    refine (List.filterMap_eq_nil_iff.mpr fun (reading, word) inside => if_neg fun owned => absent ?_).symm
    obtain ⟨flag, owner, mine⟩ := owned_iff.mp owned
    rw [Names.mem_ofList]
    exact List.mem_flatMap.mpr ⟨flag, List.mem_filterMap.mpr ⟨reading, (List.of_mem_zip inside).1, owner⟩, mine⟩

/-- A flag captures what stands in a block that a word opens by naming the flag. -/
theorem typed_of_captor? {flag : Flag} (captor : grammar.captor? words cursor index = some flag) :
    ∃ word typed, words[(grammar.parse words cursor).opener index]? = some word ∧
      (grammar.parse words cursor).role? ((grammar.parse words cursor).opener index) = some .flag ∧
      typed ∈ grammar.typedFlags word ∧ typed.flag = flag := by
  obtain ⟨-, opened⟩ := Option.ite_none_right_eq_some.mp captor
  obtain ⟨role, opened⟩ := Option.ite_none_right_eq_some.mp opened
  obtain ⟨word, found, last⟩ := Option.bind_eq_some_iff.mp opened
  obtain ⟨named, -⟩ := List.mem_filter.mp (List.mem_of_getLast? last)
  obtain ⟨typed, inside, same⟩ := List.mem_map.mp named
  exact ⟨word, typed, found, role, inside, same⟩

theorem mem_of_captor? {flag : Flag} (captor : grammar.captor? words cursor index = some flag) :
    flag ∈ grammar.flags := by
  obtain ⟨word, typed, -, -, named, rfl⟩ := typed_of_captor? captor
  exact mem_of_typed named

theorem values_eq_wordsAt (apart : grammar.flags.Pairwise Flag.Apart) {flag : Flag} {spelling : String}
    (member : flag ∈ grammar.flags) (mine : spelling ∈ flag.spellings) :
    (grammar.parse words cursor).values spelling =
      wordsAt words (grammar.captor? words cursor · = some flag) := by
  rw [values_parse, captured_eq_map_filter]
  refine map_filter_zip (fun reading => (reading.owner?.map Flag.spellings).any (spelling ∈ ·))
    (grammar.captor? words cursor · = some flag) 0 (length_readings grammar words)
    fun index reading read => ?_
  rw [owned_iff, Nat.zero_add, (owner?_reading read).1]
  constructor
  · rintro ⟨other, captor, shared⟩
    rw [captor, eq_of_shared apart (mem_of_captor? captor) member shared mine]
  · intro captor
    exact ⟨flag, captor, mine⟩

theorem exists_typed_iff {word : String} {flag : Flag} :
    (∃ typed ∈ grammar.typedFlags word, typed.flag = flag) ↔
      grammar.flag? word = some flag ∨ grammar.Bundles word flag := by
  constructor
  · rintro ⟨typed, named, rfl⟩
    exact (mem_typedFlags.mp named).imp And.left And.left
  · rintro (whole | bundled)
    · exact ⟨⟨flag, isShort word⟩, mem_typedFlags.mpr (.inl ⟨whole, rfl⟩), rfl⟩
    · exact ⟨⟨flag, true⟩, mem_typedFlags.mpr (.inr ⟨bundled, rfl⟩), rfl⟩

theorem mem_opts_iff {spelling : String} :
    spelling ∈ (grammar.parse words cursor).opts ↔
      ∃ index word flag, words[index]? = some word ∧
        (grammar.parse words cursor).role? index = some .flag ∧
        (grammar.flag? word = some flag ∨ grammar.Bundles word flag) ∧ spelling ∈ flag.spellings := by
  rw [mem_opts]
  constructor
  · rintro ⟨reading, inside, typed, named, mine⟩
    obtain ⟨index, read⟩ := List.mem_iff_getElem?.mp inside
    obtain ⟨word, found, role, resolved⟩ := (typed_reading_iff cursor).mp ⟨reading, read, named⟩
    exact ⟨index, word, typed.flag, found, role, exists_typed_iff.mp ⟨typed, resolved, rfl⟩, mine⟩
  · rintro ⟨index, word, flag, found, role, named, mine⟩
    obtain ⟨typed, resolved, rfl⟩ := exists_typed_iff.mpr named
    obtain ⟨reading, read, member⟩ := (typed_reading_iff cursor).mpr ⟨word, found, role, resolved⟩
    exact ⟨reading, List.mem_of_getElem? read, typed, member, mine⟩

theorem mem_opts_of_values {spelling : String} (captures : (grammar.parse words cursor).values spelling ≠ []) :
    spelling ∈ (grammar.parse words cursor).opts := by
  rw [values_parse, captured_eq_map_filter] at captures
  obtain ⟨word, inside⟩ := List.exists_mem_of_ne_nil _ captures
  obtain ⟨⟨reading, _⟩, listed, -⟩ := List.mem_map.mp inside
  obtain ⟨listed, owned⟩ := List.mem_filter.mp listed
  obtain ⟨index, read⟩ := List.mem_iff_getElem?.mp (List.of_mem_zip listed).1
  obtain ⟨flag, owner, mine⟩ := owned_iff.mp owned
  rw [(@owner?_reading grammar words cursor _ _ read).1] at owner
  obtain ⟨opening, typed, found, role, named, rfl⟩ := typed_of_captor? owner
  exact mem_opts_iff.mpr ⟨_, opening, typed.flag, found, role, exists_typed_iff.mp ⟨typed, named, rfl⟩, mine⟩

/-- Each word after the command names flags, or is in the line, or is captured by one flag. -/
theorem shared_out (inside : index + 1 < words.length) :
    let parse := grammar.parse words cursor
    let captor := grammar.captor? words cursor (index + 1)
    parse.role? (index + 1) = some .flag ∧ ¬ parse.InLine (index + 1) ∧ captor = none ∨
    parse.role? (index + 1) ≠ some .flag ∧ parse.InLine (index + 1) ∧ captor = none ∨
    parse.role? (index + 1) ≠ some .flag ∧ ¬ parse.InLine (index + 1) ∧
      ∃ flag ∈ grammar.flags, captor = some flag := by
  intro parse captor
  obtain ⟨reading, read⟩ : ∃ reading, (grammar.readings words)[index + 1]? = some reading :=
    ⟨_, List.getElem?_eq_getElem (by simpa using inside)⟩
  have role : parse.role? (index + 1) = some reading.wordClass.role := role?_of_reading read
  obtain ⟨owns, text⟩ : reading.owner? = captor ∧ (reading.isText = true ↔ parse.InLine (index + 1)) :=
    owner?_reading read
  rw [role, ← text]
  rw [readings_succ, List.getElem?_eq_getElem inside, Option.map_some, Option.some_inj] at read
  cases reading with
  | command => exact absurd (congrArg (·.wordClass.role) read) Expectation.role_read_ne_command
  | flags => simp [← owns, Reading.wordClass, Reading.isText, Reading.owner?]
  | positional => simp [← owns, Reading.wordClass, Reading.isText, Reading.owner?]
  | argument action owner =>
    cases owner with
    | none => simp [← owns, Reading.wordClass, Reading.isText, Reading.owner?]
    | some flag =>
      have member : flag ∈ grammar.flags := mem_of_captor? owns.symm
      simp [← owns, member, Reading.wordClass, Reading.isText, Reading.owner?]

theorem isSome_class?_iff :
    ((grammar.parse words cursor).class? index).isSome = true ↔
      index < words.length ∨ index = cursor ∧ cursor = words.length ∧ 0 < cursor := by
  rcases Nat.lt_trichotomy index words.length with typed | rfl | beyond
  · rw [class?_parse typed]
    simp [typed]
  · rw [class?_parse_length]
    split
    next new => simpa [new] using new.1 ▸ new.2
    next old => simpa [eq_comm, -not_and] using old
  · rw [class?_parse_beyond beyond]
    simp only [Option.isSome_none, Bool.false_eq_true, false_iff]
    omega

/-- No word is lost, kept twice or credited to the wrong flag: the line is made of the positional words
and the arguments in their blocks, and a flag captures the arguments in the blocks that are opened for
it, under each of its spellings. -/
theorem capture_exact {tokens : List String} (h : compile tokens = .ok grammar) (words : List String)
    (cursor : Nat) :
    let parse := grammar.parse words cursor
    let captor? := grammar.captor? words cursor
    parse.line = wordsAt words parse.InLine ∧
    (∀ flag ∈ grammar.flags, ∀ spelling ∈ flag.spellings,
      parse.values spelling = wordsAt words (captor? · = some flag)) ∧
    (∀ index, index + 1 < words.length →
      parse.role? (index + 1) = some .flag ∧ ¬ parse.InLine (index + 1) ∧ captor? (index + 1) = none ∨
      parse.role? (index + 1) ≠ some .flag ∧ parse.InLine (index + 1) ∧ captor? (index + 1) = none ∨
      parse.role? (index + 1) ≠ some .flag ∧ ¬ parse.InLine (index + 1) ∧
        ∃ flag ∈ grammar.flags, captor? (index + 1) = some flag) ∧
    (∀ spelling, spelling ∈ parse.opts ↔
      ∃ index word flag, words[index]? = some word ∧ parse.role? index = some .flag ∧
        (grammar.flag? word = some flag ∨ grammar.Bundles word flag) ∧ spelling ∈ flag.spellings) ∧
    (∀ spelling, parse.values spelling ≠ [] → spelling ∈ parse.opts) ∧
    (∀ flag ∈ grammar.flags, ∀ spelling ∈ flag.spellings,
      parse.values spelling = parse.values flag.canonical) ∧
    ∀ index, (parse.class? index).isSome = true ↔
      index < words.length ∨ index = cursor ∧ cursor = words.length ∧ 0 < cursor := by
  intro parse captor?
  have apart := (compile_wellFormed h).apart
  refine ⟨line_eq_wordsAt, ?_, ?_, ?_, ?_, ?_, ?_⟩
  · intro flag member spelling mine
    exact values_eq_wordsAt apart member mine
  · intro index inside
    exact shared_out inside
  · intro spelling
    exact mem_opts_iff
  · intro spelling captures
    exact mem_opts_of_values captures
  · intro flag member spelling mine
    have canonical : flag.canonical ∈ flag.spellings := List.mem_cons_self ..
    exact (values_eq_wordsAt apart member mine).trans (values_eq_wordsAt apart member canonical).symm
  · intro index
    exact isSome_class?_iff

/-- The bundle opens a block for `-f`, and the positional word after it opens one for its slot. -/
theorem capture_exact_bundle :
    let grammar : Grammar :=
      { flags := [{ canonical := "-f", aliases := ["--file"], chain := ⟨[.state "name"], none⟩ },
          { canonical := "-b" }]
        slots := [{ chain := ⟨[.state "first", .state "second"], none⟩, repeatable := false }] }
    let words := ["run", "-bf", "-b", "one", "-b", "--file", "two"]
    let parse := grammar.parse words 7
    compile ["\x7b-f,--file\x7d:name", "-b", ":first:second"] = .ok grammar ∧
      parse.line = ["one", "-b"] ∧ parse.values "-f" = ["-b", "two"] ∧
      parse.values "--file" = parse.values "-f" ∧ "--file" ∈ parse.opts ∧
      parse.role? 7 = some .positional := by
  intro grammar words parse
  have compiled : compile ["\x7b-f,--file\x7d:name", "-b", ":first:second"] = .ok grammar := rfl
  obtain ⟨line, values, -, -, opts, aliases, -⟩ := capture_exact compiled words 7
  have first : grammar.flags[0] ∈ grammar.flags := List.getElem_mem _
  have captured : parse.values "-f" = ["-b", "two"] := values _ first "-f" (List.mem_cons_self ..)
  have same : parse.values "--file" = parse.values "-f" := aliases _ first "--file" (by decide)
  refine ⟨compiled, line, captured, same, opts "--file" ?_, rfl⟩
  rw [same, captured]
  exact List.cons_ne_nil _ _

end Grammar

end ShellCompletion
