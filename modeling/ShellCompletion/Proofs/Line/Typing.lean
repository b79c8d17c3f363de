import ShellCompletion.Proofs.Line.Capture
import ShellCompletion.Proofs.Line.NewWord

/-!
# Typing the new word

The word at the end of the line is classified before it is typed. Typing it, as long as it does not look
like a flag, changes no class and no flag; it adds the word to what it was an argument of all along
(`parse_new_word`).
-/

namespace ShellCompletion

namespace Expectation

variable {grammar : Grammar} {expected : Expectation} {word : String}

/-- A word that does not look like a flag belongs to the flag that captures it, and to the line if none does. -/
theorem isText_read_bare (bare : looksLikeFlag word = false) :
    (expected.read grammar word).1.isText = (expected.read grammar word).1.owner?.isNone := by
  rcases owed_cases expected word with
    ⟨action, fixed, tail, owed⟩ | ⟨-, dashed⟩ | ⟨action, owed, -⟩ | ⟨owed, -⟩
  · rw [read_fixed owed]
    cases expected.owner <;> rfl
  · rw [dashed] at bare
    cases bare
  · rw [read_tail owed bare]
    cases expected.owner <;> rfl
  · rw [read_bare owed bare, fill]
    cases expected.slots <;> rfl

end Expectation

namespace Grammar

variable {grammar : Grammar} {words : List String} {word : String}

/-! ### The flag that captures the new word -/

theorem classes_concat (nonempty : words ≠ []) (bare : looksLikeFlag word = false) :
    (grammar.parse (words ++ [word]) words.length).classes = (grammar.parse words words.length).classes := by
  have after : 0 < words.length := List.length_pos_iff.mpr nonempty
  unfold parse
  simp only [readings_concat grammar nonempty, List.map_append, List.length_append, List.length_singleton]
  rw [if_neg (by omega), if_pos ⟨trivial, after⟩, @Expectation.newWord_eq_of_bare grammar _ _ bare]
  simp

/-- What captures the new word is known before it is typed. -/
theorem captor?_newWord (nonempty : words ≠ []) (bare : looksLikeFlag word = false) :
    ((grammar.expectation words).read grammar word).1.owner? =
      grammar.captor? words words.length words.length := by
  obtain ⟨before, length⟩ : ∃ before, words.length = before + 1 :=
    Nat.exists_eq_succ_of_ne_zero (mt List.length_eq_zero_iff.mp nonempty)
  have whole : words.take (before + 1) = words := by rw [← length, List.take_length]
  have role : (grammar.parse words words.length).role? words.length =
      some ((grammar.expectation words).read grammar word).1.wordClass.role := by
    rw [Parse.role?, class?_parse_length, if_pos ⟨rfl, by omega⟩,
      @Expectation.newWord_eq_of_bare grammar _ _ bare]
    rfl
  cases reads : ((grammar.expectation words).read grammar word).1.wordClass.role with
  | command => exact absurd reads Expectation.role_read_ne_command
  | flag =>
    rw [(Expectation.role_read_eq_flag_iff.mp reads).2] at bare
    cases bare
  | positional =>
    obtain ⟨owed, -⟩ := Expectation.role_read_eq_positional_iff.mp reads
    rw [captor?, if_neg (by rw [role, reads]; decide), Expectation.read_bare owed bare, Expectation.fill]
    cases (grammar.expectation words).slots <;> rfl
  | argument =>
    obtain ⟨owes, ⟨action, read⟩, -⟩ := Expectation.read_argument reads
    have argument : (grammar.parse words words.length).role? (before + 1) = some .argument := by
      rw [← length, role, reads]
    obtain ⟨opened, -⟩ := @owner_expectation grammar words words.length before (by omega) (by rwa [whole])
    rw [captor?, if_pos (by rw [role, reads]), read, Reading.owner?]
    rw [whole] at opened
    rw [opened, length, opener_argument (length ▸ argument)]

/-! ### What typing the word adds -/

theorem zip_concat (nonempty : words ≠ []) :
    (grammar.readings (words ++ [word])).zip (words ++ [word]) =
      (grammar.readings words).zip words ++ [(((grammar.expectation words).read grammar word).1, word)] := by
  rw [readings_concat grammar nonempty, List.zip_append (length_readings grammar words)]
  rfl

theorem line_concat (nonempty : words ≠ []) (bare : looksLikeFlag word = false) (cursor : Nat) :
    (grammar.parse (words ++ [word]) cursor).line = (grammar.parse words cursor).line ++
      if (grammar.captor? words words.length words.length).isNone then [word] else [] := by
  unfold parse
  dsimp only
  rw [zip_concat nonempty, List.filter_append, List.map_append, List.filter_cons, List.filter_nil,
    Expectation.isText_read_bare bare, captor?_newWord nonempty bare]
  cases grammar.captor? words words.length words.length <;> rfl

theorem opts_concat (nonempty : words ≠ []) (bare : looksLikeFlag word = false) (cursor : Nat) :
    (grammar.parse (words ++ [word]) cursor).opts = (grammar.parse words cursor).opts := by
  unfold parse
  simp [readings_concat grammar nonempty, Expectation.typed_read_bare bare]

/-- A spelling has an entry if some word was read as an argument of its flag. -/
theorem lookup_arguments (cursor : Nat) (spelling : String) :
    (grammar.parse words cursor).arguments.lookup spelling =
      if ∃ reading ∈ grammar.readings words, (reading.owner?.map Flag.spellings).any (spelling ∈ ·) then
        some ((grammar.parse words cursor).values spelling)
      else none := by
  have owners : spelling ∈ Names.ofList (((grammar.readings words).filterMap Reading.owner?).flatMap Flag.spellings) ↔
      ∃ reading ∈ grammar.readings words, (reading.owner?.map Flag.spellings).any (spelling ∈ ·) := by
    simp only [Names.mem_ofList, List.mem_flatMap, List.mem_filterMap, owned_iff]
    grind
  rw [values_parse]
  unfold parse
  dsimp only
  rw [lookup_map_self]
  simp only [owners]

theorem lookup_arguments_concat (nonempty : words ≠ []) (bare : looksLikeFlag word = false) (cursor : Nat)
    (spelling : String) :
    (grammar.parse (words ++ [word]) cursor).arguments.lookup spelling =
      if (grammar.captor? words words.length words.length).any (spelling ∈ ·.spellings) then
        some ((grammar.parse words cursor).values spelling ++ [word])
      else (grammar.parse words cursor).arguments.lookup spelling := by
  have owned : (((grammar.expectation words).read grammar word).1.owner?.map Flag.spellings).any (spelling ∈ ·) =
      (grammar.captor? words words.length words.length).any (spelling ∈ ·.spellings) := by
    rw [captor?_newWord nonempty bare, Option.any_map]
  have values : (grammar.parse (words ++ [word]) cursor).values spelling =
      (grammar.parse words cursor).values spelling ++
        if (grammar.captor? words words.length words.length).any (spelling ∈ ·.spellings) then [word] else [] := by
    rw [values_parse, values_parse, zip_concat nonempty, captured, List.filterMap_append, ← owned, captured]
    congr 1
    rw [List.filterMap_cons]
    split <;> simp_all
  rw [lookup_arguments, lookup_arguments, values, readings_concat grammar nonempty]
  simp only [List.mem_append, List.mem_singleton, or_and_right, exists_or, exists_eq_left, owned]
  by_cases mine : (grammar.captor? words words.length words.length).any (spelling ∈ ·.spellings) = true
  · rw [if_pos (.inr mine), if_pos mine, if_pos mine]
  · simp only [mine, or_false, if_false, List.append_nil, Bool.false_eq_true]

/-- Of a word that does not look like a flag everything but the word itself is known before it is typed: its class and
the flags of the line stay as they are, and the word goes to the end of what the flag captures whose argument it is,
under each spelling of that flag, or to the end of the line if there is none. -/
theorem parse_new_word (grammar : Grammar) {words : List String} (nonempty : words ≠ []) {word : String}
    (bare : looksLikeFlag word = false) :
    let new := grammar.parse words words.length
    let typed := grammar.parse (words ++ [word]) words.length
    let captor? := grammar.captor? words words.length words.length
    (∃ wordClass, new.class? words.length = some wordClass ∧ typed.class? words.length = some wordClass) ∧
      typed.classes = new.classes ∧ typed.opts = new.opts ∧ typed.excluded = new.excluded ∧
      typed.cursor = new.cursor ∧ new.current = "" ∧ typed.current = word ∧
      typed.line = new.line ++ (if captor?.isNone then [word] else []) ∧
      ∀ spelling, typed.arguments.lookup spelling =
        if captor?.any (spelling ∈ ·.spellings) then some (new.values spelling ++ [word])
        else new.arguments.lookup spelling := by
  intro new typed captor?
  have known : ∃ wordClass, new.class? words.length = some wordClass :=
    Option.isSome_iff_exists.mp (isSome_class?_iff.mpr (.inr ⟨rfl, rfl, List.length_pos_iff.mpr nonempty⟩))
  obtain ⟨wordClass, found⟩ := known
  refine ⟨⟨wordClass, found, ?_⟩, classes_concat nonempty bare, opts_concat nonempty bare _,
    excluded_append_bare nonempty bare _, rfl, ?_, ?_, line_concat nonempty bare _,
    lookup_arguments_concat nonempty bare _⟩
  · exact (class?_newWord nonempty bare).symm.trans found
  · show words[words.length]?.getD "" = ""
    rw [List.getElem?_eq_none (Nat.le_refl _), Option.getD_none]
  · show (words ++ [word])[words.length]?.getD "" = word
    rw [List.getElem?_concat_length, Option.getD_some]

/-- The repeating tail of `-o` captures the word after its fixed arguments. -/
theorem parse_new_word_tail :
    let grammar : Grammar :=
      { flags := [{ canonical := "-o", aliases := ["--out"], chain := ⟨[.state "file"], some .literal⟩ }]
        slots := [{ chain := ⟨[.state "first", .state "second"], none⟩, repeatable := false }] }
    let words := ["tool", "x", "y", "--out", "z"]
    let new := grammar.parse words 5
    let typed := grammar.parse (words ++ ["-"]) 5
    compile ["\x7b-o,--out\x7d:file:*-", ":first:second"] = .ok grammar ∧ words ≠ [] ∧ looksLikeFlag "-" = false ∧
      new.class? 5 = some ⟨.literal, .argument⟩ ∧ typed.classes = new.classes ∧ typed.opts = ["--out", "-o"] ∧
      typed.line = ["x", "y"] ∧ typed.arguments.lookup "-o" = some ["z", "-"] := by
  intro grammar words new typed
  have nonempty : words ≠ [] := by decide
  have bare : looksLikeFlag "-" = false := by decide
  obtain ⟨-, classes, opts, -, -, -, -, line, arguments⟩ := parse_new_word grammar nonempty bare
  exact ⟨rfl, nonempty, bare, by decide, classes, opts, line, arguments "-o"⟩

end Grammar

end ShellCompletion
