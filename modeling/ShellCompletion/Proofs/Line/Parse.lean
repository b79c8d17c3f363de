import ShellCompletion.Proofs.Line.Reading

/-!
# What a parse says of a word

Every word has the class of the step that reads it (`class?_succ`), and the flags of a line are those
that its words of role `flag` name (`typed_reading_iff`). `mem_excluded` and `mem_opts` say which
spellings a parse gathers from the readings.
-/

namespace ShellCompletion

namespace Grammar

/-! ### Classes -/

variable {grammar : Grammar} {words : List String} {cursor : Nat}

theorem class?_parse {index : Nat} (typed : index < words.length) :
    (grammar.parse words cursor).class? index =
      (grammar.readings words)[index]?.map Reading.wordClass := by
  unfold Parse.class? parse
  rw [List.getElem?_append_left (by simpa using typed), List.getElem?_map]

theorem role?_of_reading {index : Nat} {reading : Reading}
    (read : (grammar.readings words)[index]? = some reading) :
    (grammar.parse words cursor).role? index = some reading.wordClass.role := by
  obtain ⟨inside, -⟩ := List.getElem?_eq_some_iff.mp read
  have typed : index < words.length := by simpa using inside
  rw [Parse.role?, class?_parse typed, read]
  rfl

theorem class?_succ {index : Nat} {word : String} (found : words[index + 1]? = some word) :
    (grammar.parse words cursor).class? (index + 1) =
      some ((grammar.expectation (words.take (index + 1))).read grammar word).1.wordClass := by
  obtain ⟨typed, -⟩ := List.getElem?_eq_some_iff.mp found
  rw [class?_parse typed, readings_succ, found]
  rfl

theorem role?_succ {index : Nat} {word : String} (found : words[index + 1]? = some word) :
    (grammar.parse words cursor).role? (index + 1) =
      some ((grammar.expectation (words.take (index + 1))).read grammar word).1.wordClass.role := by
  rw [Parse.role?, class?_succ found, Option.map_some]

theorem role?_zero : (grammar.parse words cursor).role? 0 ≠ some .flag ∧
    (grammar.parse words cursor).role? 0 ≠ some .positional := by
  unfold Parse.role?
  cases words with
  | nil => simp [Parse.class?, parse, readings]
  | cons word rest =>
    rw [class?_parse (by simp)]
    simp [readings, Reading.wordClass]

theorem class?_parse_length :
    (grammar.parse words cursor).class? words.length =
      if cursor = words.length ∧ 0 < cursor then some (grammar.expectation words).newWord else none := by
  unfold Parse.class? parse
  rw [List.getElem?_append_right (by simp)]
  split <;> simp

theorem class?_parse_beyond {index : Nat} (beyond : words.length < index) :
    (grammar.parse words cursor).class? index = none := by
  unfold Parse.class? parse
  apply List.getElem?_eq_none
  split <;> simp <;> omega

theorem role?_eq_flag_iff {index : Nat} :
    (grammar.parse words cursor).role? index = some .flag ↔
      ∃ typed, (grammar.readings words)[index]? = some (.flags typed) := by
  unfold Parse.role?
  rcases Nat.lt_trichotomy index words.length with typed | rfl | beyond
  · rw [class?_parse typed]
    cases (grammar.readings words)[index]? with
    | none => simp
    | some reading => cases reading <;> simp [Reading.wordClass]
  · rw [class?_parse_length]
    have none : (grammar.readings words)[words.length]? = none := by simp
    rw [none]
    split
    next => unfold Expectation.newWord; split <;> simp
    next => simp
  · rw [class?_parse_beyond beyond]
    have none : (grammar.readings words)[index]? = none := by simp; omega
    simp [none]

theorem class?_of_flag {index : Nat} (flag : (grammar.parse words cursor).role? index = some .flag) :
    (grammar.parse words cursor).class? index = some ⟨.literal, .flag⟩ := by
  obtain ⟨typed, read⟩ := role?_eq_flag_iff.mp flag
  obtain ⟨inside, -⟩ := List.getElem?_eq_some_iff.mp read
  rw [class?_parse (by simpa using inside), read]
  rfl

/-- The flags of a line are those that its words of role `flag` name. -/
theorem typed_reading_iff (cursor : Nat) {index : Nat} {typed : TypedFlag} :
    (∃ reading, (grammar.readings words)[index]? = some reading ∧ typed ∈ reading.typed) ↔
      ∃ word, words[index]? = some word ∧ (grammar.parse words cursor).role? index = some .flag ∧
        typed ∈ grammar.typedFlags word := by
  cases index with
  | zero =>
    rw [readings_zero]
    have other : (grammar.parse words cursor).role? 0 ≠ some .flag := role?_zero.1
    cases words <;> simp [other, Reading.typed]
  | succ index =>
    rw [readings_succ]
    cases found : words[index + 1]? with
    | none => simp
    | some word => simp [role?_succ found, Expectation.mem_typed_read]

/-! ### What is gathered -/

theorem mem_excluded {spelling : String} :
    spelling ∈ (grammar.parse words cursor).excluded ↔
      ∃ (index : Nat) (reading : Reading), (grammar.readings words)[index]? = some reading ∧
        spelling ∈ grammar.spent (index == cursor) reading := by
  simp only [parse, Names.mem_ofList, List.mem_flatMap, Prod.exists, List.mem_zipIdx_iff_getElem?]
  exact exists_comm

theorem mem_spent {atCursor : Bool} {reading : Reading} {spelling : String} :
    spelling ∈ grammar.spent atCursor reading ↔
      ∃ typed ∈ reading.typed, typed.flag.repeatable = false ∧ (atCursor = true → typed.short = true) ∧
        spelling ∈ grammar.rivals typed.flag := by
  cases atCursor <;> simp [spent, and_assoc]

theorem mem_opts {spelling : String} :
    spelling ∈ (grammar.parse words cursor).opts ↔
      ∃ reading ∈ grammar.readings words, ∃ typed ∈ reading.typed, spelling ∈ typed.flag.spellings := by
  simp [parse, List.flatMap_assoc]

end Grammar

end ShellCompletion
