import Mathlib.Data.List.Basic
import ShellCompletion.Grammar.Compile
import ShellCompletion.Proofs.Line.NewWord

/-!
# Bundles

A bundle names the flags of its letters in their order, and so do the letters typed as words of their own
(`flags_typedFlags_bundle`). As long as only the last of them takes arguments, both leave the same expected
(`readAll_apart`), and the rest of the line does not tell them apart (`parse_apart`).
-/

namespace ShellCompletion

/-- Each letter as a word of its own, after a dash. -/
def apart (letters : List Char) : List String := letters.map fun letter => String.ofList ['-', letter]

@[simp] theorem length_apart (letters : List Char) : (apart letters).length = letters.length :=
  List.length_map ..

theorem apart_cons (letter : Char) (letters : List Char) :
    apart (letter :: letters) = String.ofList ['-', letter] :: apart letters := rfl

theorem looksLikeFlag_letter (letter : Char) : looksLikeFlag (String.ofList ['-', letter]) = true := by
  simp [looksLikeFlag]

theorem ne_nil_of_dashed {bundle : String} {letters : List Char} (spelled : bundle.toList = '-' :: letters)
    (dashed : looksLikeFlag bundle = true) : letters ≠ [] := by
  rintro rfl
  simp [looksLikeFlag, spelled] at dashed

/-! ### The flags that are named -/

namespace Grammar

variable (grammar : Grammar)

theorem flags_typedFlags_letter (letter : Char) :
    (grammar.typedFlags (String.ofList ['-', letter])).map (·.flag) =
      (grammar.flag? (String.ofList ['-', letter])).toList := by
  unfold typedFlags
  split
  next found => rw [found]; rfl
  next absent _ => rw [absent]; rfl
  next absent _ =>
    -- The word is no spelling, so it bundles one letter, and this is the same spelling.
    rw [String.toList_ofList, List.drop_one, List.tail_cons, List.filterMap_cons, absent]
    rfl

theorem flags_typedFlags_bundle {bundle : String} {letters : List Char}
    (spelled : bundle.toList = '-' :: letters) (single : letters.head? ≠ some '-')
    (absent : grammar.flag? bundle = none) :
    (grammar.typedFlags bundle).map (·.flag) =
      ((apart letters).flatMap grammar.typedFlags).map (·.flag) := by
  have bundled : grammar.typedFlags bundle =
      letters.filterMap fun letter =>
        (grammar.flag? (String.ofList ['-', letter])).map fun flag => { flag, short := true } := by
    unfold typedFlags
    rw [absent, spelled]
    split
    next found => cases found
    next double =>
      rw [List.cons.injEq] at double
      exact absurd (by rw [double.2]; rfl) single
    next => rfl
  rw [bundled, List.map_filterMap, List.map_flatMap, apart, List.flatMap_map]
  simp only [flags_typedFlags_letter, Option.map_map, Function.comp_def, Option.map_id']
  exact List.filterMap_eq_flatMap_toList ..

end Grammar

/-! ### What is expected afterwards -/

namespace Expectation

variable {grammar : Grammar} {expected : Expectation}

theorem afterFlags_congr {typed other : List TypedFlag} (same : typed.map (·.flag) = other.map (·.flag)) :
    expected.afterFlags typed = expected.afterFlags other := by
  rw [afterFlags_eq, afterFlags_eq, lastTaker?, lastTaker?, same]

theorem afterFlags_append (typed more : List TypedFlag) :
    expected.afterFlags (typed ++ more) = (expected.afterFlags typed).afterFlags more :=
  List.foldl_append ..

theorem afterFlags_quiet {typed : List TypedFlag} (quiet : ∀ named ∈ typed, named.flag.takesArguments = false) :
    expected.afterFlags typed = expected := by
  have none : lastTaker? typed = none := by
    rw [lastTaker?, List.getLast?_eq_none_iff, List.filter_eq_nil_iff]
    intro flag inside
    obtain ⟨named, member, rfl⟩ := List.mem_map.mp inside
    rw [quiet named member]
    exact Bool.false_ne_true
  rw [afterFlags_eq, none]

theorem read_flags {word : String} (owed : expected.chain = {}) (dashed : looksLikeFlag word = true) :
    expected.read grammar word =
      (.flags (grammar.typedFlags word), expected.afterFlags (grammar.typedFlags word)) := by
  simp [read, endTail, Chain.onlyTail, Chain.next?, owed, dashed]

theorem readAll_cons (word : String) (rest : List String) :
    readAll grammar expected (word :: rest) =
      ((expected.read grammar word).1 :: (readAll grammar (expected.read grammar word).2 rest).1,
        (readAll grammar (expected.read grammar word).2 rest).2) := rfl

/-- Letters typed apart name their flags one after the other, and only the last of them may leave a chain. -/
theorem readAll_apart {letters : List Char} (owed : expected.chain = {})
    (quiet : ∀ letter ∈ letters.dropLast, ∀ flag,
      grammar.flag? (String.ofList ['-', letter]) = some flag → flag.takesArguments = false) :
    readAll grammar expected (apart letters) =
      ((apart letters).map fun word => .flags (grammar.typedFlags word),
        expected.afterFlags ((apart letters).flatMap grammar.typedFlags)) := by
  induction letters generalizing expected with
  | nil => rfl
  | cons letter rest ih =>
    rw [apart_cons, readAll_cons, read_flags owed (looksLikeFlag_letter letter)]
    cases rest with
    | nil => simp [apart, readAll]
    | cons second later =>
      rw [List.dropLast_cons_cons] at quiet
      have unmoved : expected.afterFlags (grammar.typedFlags (String.ofList ['-', letter])) = expected := by
        refine afterFlags_quiet fun named inside => quiet letter (List.mem_cons_self ..) named.flag ?_
        rw [← Option.mem_toList, ← grammar.flags_typedFlags_letter]
        exact List.mem_map_of_mem inside
      rw [unmoved, ih owed fun letter inside => quiet letter (List.mem_cons_of_mem _ inside), List.map_cons,
        List.flatMap_cons, afterFlags_append, unmoved]

/-- What a tail leaves behind is the same for all words that look like flags. -/
theorem endTail_congr {word other : String} (dashed : looksLikeFlag word = true)
    (alike : looksLikeFlag other = true) : expected.endTail word = expected.endTail other := by
  rw [endTail, endTail, dashed, alike]

theorem chain_endTail {word : String} (owed : expected.chain.fixed = []) (dashed : looksLikeFlag word = true) :
    (expected.endTail word).chain = {} := by
  obtain ⟨⟨fixed, tail⟩, owner, slots⟩ := expected
  subst owed
  cases tail <;> simp [endTail, Chain.onlyTail, dashed]

theorem read_endTail (word : String) : (expected.endTail word).read grammar word = expected.read grammar word := by
  have settled : (expected.endTail word).endTail word = expected.endTail word := by
    unfold endTail
    split
    next ends => simp [Chain.onlyTail]
    next => rfl
  rw [read, read, settled]

/-- A bundle and its letters typed apart name the same flags and leave the same expected. -/
theorem readAll_bundle {bundle : String} {letters : List Char} (spelled : bundle.toList = '-' :: letters)
    (single : letters.head? ≠ some '-') (absent : grammar.flag? bundle = none)
    (quiet : ∀ letter ∈ letters.dropLast, ∀ flag,
      grammar.flag? (String.ofList ['-', letter]) = some flag → flag.takesArguments = false)
    (role : (expected.read grammar bundle).1.wordClass.role = .flag) :
    ∃ between next,
      expected.read grammar bundle = (.flags (grammar.typedFlags bundle), next) ∧
      readAll grammar expected (apart letters) = (between, next) ∧
      between = (apart letters).map fun word => .flags (grammar.typedFlags word) := by
  obtain ⟨owed, dashed⟩ := role_read_eq_flag_iff.mp role
  cases letters with
  | nil => exact absurd rfl (ne_nil_of_dashed spelled dashed)
  | cons letter rest =>
    have ended := chain_endTail owed dashed
    have same : expected.endTail bundle = expected.endTail (String.ofList ['-', letter]) :=
      endTail_congr dashed (looksLikeFlag_letter letter)
    have first : readAll grammar (expected.endTail bundle) (apart (letter :: rest)) =
        readAll grammar expected (apart (letter :: rest)) := by
      rw [apart_cons, readAll_cons, readAll_cons, same, read_endTail]
    refine ⟨_, _, ?_, first.symm.trans (readAll_apart ended quiet), rfl⟩
    rw [← read_endTail, read_flags ended dashed,
      afterFlags_congr (grammar.flags_typedFlags_bundle spelled single absent)]

end Expectation

/-! ### Words that move along -/

/-- Where the word at `index` stands once the `old` words from `start` on have made way for `new` ones. -/
def moved (start old new index : Nat) : Nat := if index < start then index else index + new - old

theorem moved_of_lt {start index : Nat} (old new : Nat) (less : index < start) : moved start old new index = index :=
  if_pos less

theorem moved_add (start old new offset : Nat) : moved start old new (start + old + offset) = start + new + offset := by
  rw [moved, if_neg (by omega)]
  omega

/-- The index is none of the words that make way. -/
def Outside (start old index : Nat) : Prop := index < start ∨ ∃ offset, index = start + old + offset

/-- What is gathered over a list with its positions knows of these only where the cursor is. -/
theorem flatMap_zipIdx_congr {α β : Type} (gather : Bool → α → List β) (items : List α)
    {start other cursor : Nat} (moved : Nat)
    (same : ∀ index < items.length, start + index = cursor ↔ other + index = moved) :
    (items.zipIdx start).flatMap (fun item => gather (item.2 == cursor) item.1) =
      (items.zipIdx other).flatMap fun item => gather (item.2 == moved) item.1 := by
  induction items generalizing start other with
  | nil => rfl
  | cons item rest ih =>
    have here : (start == cursor) = (other == moved) := by
      rw [Bool.eq_iff_iff, beq_iff_eq, beq_iff_eq]
      exact same 0 (Nat.succ_pos _)
    have later : ∀ index < rest.length, start + 1 + index = cursor ↔ other + 1 + index = moved := by
      intro index inside
      have step := same (index + 1) (Nat.succ_lt_succ inside)
      omega
    rw [List.zipIdx_cons, List.zipIdx_cons, List.flatMap_cons, List.flatMap_cons, here, ih later]

/-! ### Flags in the middle of a line -/

/-- The flags that the word names. -/
def Reading.named (reading : Reading) : List Flag := reading.typed.map (·.flag)

/-- The readings of a line whose words in the middle name flags and nothing else. -/
structure FlagsBetween (grammar : Grammar) (before middle after : List String)
    (first between last : List Reading) : Prop where
  read : grammar.readings (before ++ middle ++ after) = first ++ between ++ last
  length_first : first.length = before.length
  length_between : between.length = middle.length
  flags : ∀ reading ∈ between, ∃ typed, reading = .flags typed

namespace FlagsBetween

variable {grammar : Grammar} {before middle after : List String} {first between last : List Reading}

theorem zip (around : FlagsBetween grammar before middle after first between last) :
    (grammar.readings (before ++ middle ++ after)).zip (before ++ middle ++ after) =
      first.zip before ++ between.zip middle ++ last.zip after := by
  rw [around.read, List.zip_append (by simp [around.length_first, around.length_between]),
    List.zip_append around.length_first]

/-- The words in the middle are no text. -/
theorem line (around : FlagsBetween grammar before middle after first between last) (cursor : Nat) :
    (grammar.parse (before ++ middle ++ after) cursor).line =
      ((first.zip before ++ last.zip after).filter (·.1.isText)).map (·.2) := by
  have silent : (between.zip middle).filter (·.1.isText) = [] := by
    refine List.filter_eq_nil_iff.mpr fun read inside => ?_
    obtain ⟨typed, flags⟩ := around.flags read.1 (List.of_mem_zip inside).1
    simp [flags, Reading.isText]
  show (((grammar.readings _).zip _).filter (·.1.isText)).map (·.2) = _
  rw [around.zip, List.filter_append, List.filter_append, silent, List.append_nil, ← List.filter_append]

/-- Nor are they captured. -/
theorem arguments (around : FlagsBetween grammar before middle after first between last) (cursor : Nat) :
    (grammar.parse (before ++ middle ++ after) cursor).arguments =
      (Names.ofList (((first ++ last).filterMap Reading.owner?).flatMap Flag.spellings)).map fun spelling =>
        (spelling, Grammar.captured spelling (first.zip before ++ last.zip after)) := by
  have unowned : between.filterMap Reading.owner? = [] := by
    refine List.filterMap_eq_nil_iff.mpr fun reading inside => ?_
    obtain ⟨typed, rfl⟩ := around.flags reading inside
    rfl
  have free (spelling : String) : Grammar.captured spelling (between.zip middle) = [] := by
    refine List.filterMap_eq_nil_iff.mpr fun read inside => ?_
    obtain ⟨typed, flags⟩ := around.flags read.1 (List.of_mem_zip inside).1
    simp [flags, Reading.owner?]
  show (Names.ofList (((grammar.readings _).filterMap Reading.owner?).flatMap Flag.spellings)).map
    (fun spelling => (spelling, Grammar.captured spelling ((grammar.readings _).zip _))) = _
  rw [around.zip, around.read]
  simp only [Grammar.captured, List.filterMap_append] at free ⊢
  simp only [free, unowned, List.append_nil]

theorem opts (around : FlagsBetween grammar before middle after first between last) (cursor : Nat) :
    (grammar.parse (before ++ middle ++ after) cursor).opts =
      Names.ofList ((first.flatMap Reading.named ++ between.flatMap Reading.named ++
        last.flatMap Reading.named).flatMap Flag.spellings) := by
  show Names.ofList (((grammar.readings _).flatMap Reading.typed).flatMap (·.flag.spellings)) = _
  rw [around.read, ← List.flatMap_append, ← List.flatMap_append, List.flatMap_assoc, List.flatMap_assoc]
  simp only [Reading.named, List.flatMap_map]

theorem spent_elsewhere (reading : Reading) :
    grammar.spent false reading = (reading.named.filter (!·.repeatable)).flatMap grammar.rivals := by
  simp [Grammar.spent, Reading.named, List.filter_map, List.flatMap_map, Function.comp_def]

/-- With the cursor on none of them, the words in the middle exclude what their flags exclude. -/
theorem excluded (around : FlagsBetween grammar before middle after first between last) {cursor : Nat}
    (outside : Outside before.length middle.length cursor) :
    (grammar.parse (before ++ middle ++ after) cursor).excluded =
      Names.ofList ((first.zipIdx.flatMap fun read => grammar.spent (read.2 == cursor) read.1) ++
        ((between.flatMap Reading.named).filter (!·.repeatable)).flatMap grammar.rivals ++
        (last.zipIdx (before.length + middle.length)).flatMap fun read =>
          grammar.spent (read.2 == cursor) read.1) := by
  have unmarked : (between.zipIdx before.length).flatMap (fun read => grammar.spent (read.2 == cursor) read.1) =
      ((between.flatMap Reading.named).filter (!·.repeatable)).flatMap grammar.rivals := by
    calc (between.zipIdx before.length).flatMap (fun read => grammar.spent (read.2 == cursor) read.1)
      _ = (between.zipIdx before.length).flatMap fun read => grammar.spent false read.1 := by
        refine List.flatMap_congr fun read inside => ?_
        obtain ⟨above, below, -⟩ := List.mem_zipIdx inside
        rw [around.length_between] at below
        have other : read.2 ≠ cursor := by
          rcases outside with less | ⟨offset, rfl⟩ <;> omega
        rw [beq_eq_false_iff_ne.mpr other]
      _ = between.flatMap (grammar.spent false) := by
        rw [← List.flatMap_map, List.zipIdx_map_fst]
      _ = _ := by
        rw [List.filter_flatMap, List.flatMap_assoc]
        exact List.flatMap_congr fun reading _ => spent_elsewhere reading
  show Names.ofList ((grammar.readings _).zipIdx.flatMap fun read => grammar.spent (read.2 == cursor) read.1) = _
  rw [around.read, List.zipIdx_append, List.zipIdx_append, List.flatMap_append, List.flatMap_append,
    List.length_append, around.length_first, around.length_between, Nat.zero_add, Nat.zero_add, unmarked]

theorem class?_before (around : FlagsBetween grammar before middle after first between last) (cursor : Nat)
    {index : Nat} (inside : index < before.length) :
    (grammar.parse (before ++ middle ++ after) cursor).class? index = first[index]?.map Reading.wordClass := by
  rw [Grammar.class?_parse (by simp; omega), around.read, List.append_assoc,
    List.getElem?_append_left (around.length_first ▸ inside)]

theorem class?_after (around : FlagsBetween grammar before middle after first between last) (cursor index : Nat) :
    (grammar.parse (before ++ middle ++ after) cursor).class? (before.length + middle.length + index) =
      (last.map Reading.wordClass ++
        if cursor = before.length + middle.length + after.length ∧ 0 < cursor then
          [(grammar.expectation (before ++ middle ++ after)).newWord] else [])[index]? := by
  have typed : ((first ++ between).map Reading.wordClass).length = before.length + middle.length := by
    simp [around.length_first, around.length_between]
  show ((grammar.readings _).map Reading.wordClass ++ _)[_]? = _
  rw [around.read, List.map_append, List.append_assoc, List.getElem?_append_right (by omega), typed,
    Nat.add_sub_cancel_left, List.length_append, List.length_append]

variable {other : List String} {replaced : List Reading}

/-- Words that name the same flags and leave the same expected can stand for each other: the rest of the line
moves along and stays what it is. -/
theorem replace (old : FlagsBetween grammar before middle after first between last)
    (new : FlagsBetween grammar before other after first replaced last) (started : before ≠ [])
    (named : replaced.flatMap Reading.named = between.flatMap Reading.named)
    (left : grammar.expectation (before ++ other ++ after) = grammar.expectation (before ++ middle ++ after))
    {cursor : Nat} (outside : Outside before.length middle.length cursor) :
    let moved := moved before.length middle.length other.length
    let parse := grammar.parse (before ++ middle ++ after) cursor
    let next := grammar.parse (before ++ other ++ after) (moved cursor)
    next.line = parse.line ∧ next.opts = parse.opts ∧ next.excluded = parse.excluded ∧
      next.arguments = parse.arguments ∧ next.current = parse.current ∧
      ∀ index, Outside before.length middle.length index → next.class? (moved index) = parse.class? index := by
  intro moved parse next
  have positive : 0 < before.length := List.length_pos_iff.mpr started
  have ahead {index : Nat} (less : index < before.length) : moved index = index := moved_of_lt _ _ less
  have behind (offset : Nat) :
      moved (before.length + middle.length + offset) = before.length + other.length + offset := moved_add ..
  refine ⟨?_, ?_, ?_, ?_, ?_, fun index apart => ?_⟩
  · rw [new.line, old.line]
  · rw [new.opts, old.opts, named]
  · have movedOutside : Outside before.length other.length (moved cursor) := by
      rcases outside with less | ⟨offset, rfl⟩
      · exact .inl (by rwa [ahead less])
      · exact .inr ⟨offset, behind offset⟩
    rw [new.excluded movedOutside, old.excluded outside, named,
      flatMap_zipIdx_congr grammar.spent first cursor, flatMap_zipIdx_congr grammar.spent last cursor]
    · intro index _
      rcases outside with less | ⟨offset, rfl⟩
      · rw [ahead less]
        omega
      · rw [behind]
        omega
    · intro index inside
      rw [old.length_first] at inside
      rcases outside with less | ⟨offset, rfl⟩
      · rw [ahead less]
      · rw [behind]
        omega
  · rw [new.arguments, old.arguments]
  · show (before ++ other ++ after)[moved cursor]?.getD "" = (before ++ middle ++ after)[cursor]?.getD ""
    rcases outside with less | ⟨offset, rfl⟩
    · rw [ahead less, List.append_assoc, List.append_assoc, List.getElem?_append_left less,
        List.getElem?_append_left less]
    · rw [behind, List.getElem?_append_right (by simp), List.getElem?_append_right (by simp)]
      simp
  · rcases apart with less | ⟨offset, rfl⟩
    · rw [ahead less, new.class?_before _ less, old.class?_before _ less]
    · -- The class of the new word is there for both cursors or for none.
      have atEnd : moved cursor = before.length + other.length + after.length ∧ 0 < moved cursor ↔
          cursor = before.length + middle.length + after.length ∧ 0 < cursor := by
        rcases outside with less | ⟨offset, rfl⟩
        · rw [ahead less]
          omega
        · rw [behind]
          omega
      rw [behind, new.class?_after, old.class?_after, left]
      simp only [atEnd]

end FlagsBetween

/-! ### Bundles in a line -/

namespace Grammar

variable {grammar : Grammar}

theorem readings_append_more {before : List String} (started : before ≠ []) (more : List String) :
    grammar.readings (before ++ more) =
      grammar.readings before ++ (Expectation.readAll grammar (grammar.expectation before) more).1 := by
  cases before with
  | nil => exact absurd rfl started
  | cons first rest =>
    rw [List.cons_append, readings, Expectation.readAll_append]
    rfl

theorem expectation_append {before : List String} (started : before ≠ []) (more : List String) :
    grammar.expectation (before ++ more) =
      (Expectation.readAll grammar (grammar.expectation before) more).2 := by
  cases before with
  | nil => exact absurd rfl started
  | cons first rest => exact Expectation.snd_readAll_append grammar _ rest more

/-- A bundle can be typed as one word for each of its letters, as long as only the flag of the last letter takes
arguments: the line says the same, and the other words and the new word at the end keep their classes. The words
behind the bundle and the cursor move along. -/
theorem parse_apart (grammar : Grammar) {before after : List String} {bundle : String} {letters : List Char}
    {cursor : Nat} (spelled : bundle.toList = '-' :: letters) (single : letters.head? ≠ some '-')
    (absent : grammar.flag? bundle = none)
    (quiet : ∀ letter ∈ letters.dropLast, ∀ flag,
      grammar.flag? (String.ofList ['-', letter]) = some flag → flag.takesArguments = false)
    (elsewhere : cursor ≠ before.length)
    (role : (grammar.parse (before ++ [bundle] ++ after) cursor).role? before.length = some .flag) :
    let moved := moved before.length 1 letters.length
    let together := grammar.parse (before ++ [bundle] ++ after) cursor
    let spread := grammar.parse (before ++ apart letters ++ after) (moved cursor)
    spread.line = together.line ∧ spread.opts = together.opts ∧ spread.excluded = together.excluded ∧
      spread.arguments = together.arguments ∧ spread.current = together.current ∧
      ∀ index ≠ before.length, spread.class? (moved index) = together.class? index := by
  have started : before ≠ [] := by
    rintro rfl
    exact role?_zero.1 role
  have reads : grammar.readings (before ++ [bundle] ++ after) = grammar.readings before ++
      ((grammar.expectation before).read grammar bundle).1 ::
        (Expectation.readAll grammar ((grammar.expectation before).read grammar bundle).2 after).1 := by
    rw [List.append_assoc, readings_append_more started]
    rfl
  have flag : ((grammar.expectation before).read grammar bundle).1.wordClass.role = .flag := by
    have first : (grammar.readings (before ++ [bundle] ++ after))[before.length]? =
        some ((grammar.expectation before).read grammar bundle).1 := by
      rw [reads, List.getElem?_append_right (by simp)]
      simp
    exact Option.some.inj ((role?_of_reading first).symm.trans role)
  obtain ⟨between, next, read, readAll, rfl⟩ := Expectation.readAll_bundle spelled single absent quiet flag
  -- The readings around the bundle and around its letters are the same.
  have bundled : FlagsBetween grammar before [bundle] after (grammar.readings before)
      [.flags (grammar.typedFlags bundle)] (Expectation.readAll grammar next after).1 := by
    refine ⟨?_, length_readings .., rfl, fun reading inside => ⟨_, List.mem_singleton.mp inside⟩⟩
    rw [reads, read, List.append_assoc]
    rfl
  have lettered : FlagsBetween grammar before (apart letters) after (grammar.readings before)
      ((apart letters).map fun word => .flags (grammar.typedFlags word))
      (Expectation.readAll grammar next after).1 := by
    refine ⟨?_, length_readings .., List.length_map .., fun reading inside => ?_⟩
    · rw [List.append_assoc, readings_append_more started, Expectation.readAll_append, readAll, List.append_assoc]
    · obtain ⟨word, -, flags⟩ := List.mem_map.mp inside
      exact ⟨_, flags.symm⟩
  have named : ((apart letters).map fun word => Reading.flags (grammar.typedFlags word)).flatMap Reading.named =
      [Reading.flags (grammar.typedFlags bundle)].flatMap Reading.named := by
    rw [List.flatMap_map, List.flatMap_singleton]
    refine Eq.trans ?_ (grammar.flags_typedFlags_bundle spelled single absent).symm
    rw [List.map_flatMap]
    rfl
  have left : grammar.expectation (before ++ apart letters ++ after) =
      grammar.expectation (before ++ [bundle] ++ after) := by
    rw [List.append_assoc, List.append_assoc, expectation_append started, expectation_append started,
      Expectation.snd_readAll_append, Expectation.snd_readAll_append, readAll, Expectation.readAll_cons, read]
    rfl
  have outside {index : Nat} (other : index ≠ before.length) : Outside before.length [bundle].length index := by
    rcases Nat.lt_or_gt_of_ne other with less | more
    · exact .inl less
    · exact .inr (Nat.exists_eq_add_of_le more)
  have replaced := bundled.replace lettered started named left (outside elsewhere)
  rw [length_apart, List.length_singleton] at replaced
  obtain ⟨line, opts, excluded, arguments, current, classes⟩ := replaced
  exact ⟨line, opts, excluded, arguments, current, fun index other => classes index (outside other)⟩

/-- One letter twice, one that names no flag, a dash, and a last one that takes an argument. -/
theorem parse_apart_letters :
    let grammar : Grammar :=
      { flags := [{ canonical := "-a" }, { canonical := "-x", chain := ⟨[.state "file"], none⟩ }]
        slots := [⟨⟨[.state "item"], none⟩, true⟩] }
    let letters := ['a', '?', '-', 'a', 'x']
    let together := grammar.parse (["tool", "one"] ++ ["-a?-ax"] ++ ["two", "three"]) 5
    let spread := grammar.parse (["tool", "one"] ++ apart letters ++ ["two", "three"]) (moved 2 1 5 5)
    compile ["-a", "-x:file", ":*item"] = .ok grammar ∧ grammar.flag? "-a?-ax" = none ∧
      (∀ letter ∈ letters.dropLast, ∀ flag,
        grammar.flag? (String.ofList ['-', letter]) = some flag → flag.takesArguments = false) ∧
      together.role? 2 = some .flag ∧ apart letters = ["-a", "-?", "--", "-a", "-x"] ∧
      together.arguments = [("-x", ["two"])] ∧
      spread.line = together.line ∧ spread.opts = together.opts ∧ spread.excluded = together.excluded ∧
      spread.arguments = together.arguments ∧ spread.current = together.current ∧
      ∀ index ≠ 2, spread.class? (moved 2 1 5 index) = together.class? index := by
  intro grammar letters together spread
  have quiet : ∀ letter ∈ letters.dropLast, ∀ flag,
      grammar.flag? (String.ofList ['-', letter]) = some flag → flag.takesArguments = false := by
    intro letter inside flag found
    have none : letters.dropLast.all fun letter =>
        (grammar.flag? (String.ofList ['-', letter])).all (!·.takesArguments) := rfl
    have free := List.all_eq_true.mp none letter inside
    rw [found, Option.all_some] at free
    exact Bool.not_eq_eq_eq_not.mp free
  have role : together.role? 2 = some .flag := rfl
  exact ⟨rfl, rfl, quiet, role, rfl, rfl,
    @parse_apart grammar ["tool", "one"] ["two", "three"] "-a?-ax" letters 5 rfl (by decide) rfl quiet (by decide)
      role⟩

end Grammar

end ShellCompletion
