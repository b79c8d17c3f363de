import ShellCompletion.Line.Parse

/-!
# Steps of a reading

What is owed and the look of a word decide how it is read: `read_fixed`, `read_tail`, `read_dashed` and
`read_bare` cover every case between them. The reading of a word of a line is one such step from what is
expected after the words before it (`readings_succ`, `expectation_succ`).
-/

namespace ShellCompletion

/-- The last flag that takes arguments. -/
def lastTaker? (typed : List TypedFlag) : Option Flag :=
  ((typed.map (·.flag)).filter Flag.takesArguments).getLast?

/-! ### One word -/

namespace Expectation

variable {grammar : Grammar} {expected : Expectation} {word : String}

/-- A word that names flags hands the block to the last of them that takes arguments. -/
theorem afterFlags_eq (expected : Expectation) (typed : List TypedFlag) :
    expected.afterFlags typed = match lastTaker? typed with
      | some flag => { expected with chain := flag.chain, owner := some flag }
      | none => expected := by
  induction typed generalizing expected with
  | nil => rfl
  | cons head rest ih =>
    rw [afterFlags, List.foldl_cons]
    refine (ih _).trans ?_
    unfold lastTaker?
    rw [List.map_cons, List.filter_cons]
    by_cases takes : head.flag.takesArguments = true
    · rw [if_pos takes, if_pos takes, List.getLast?_cons]
      cases ((rest.map (·.flag)).filter Flag.takesArguments).getLast? <;> rfl
    · rw [if_neg takes, if_neg takes]

@[simp] theorem slots_afterFlags (typed : List TypedFlag) :
    (expected.afterFlags typed).slots = expected.slots := by
  rw [afterFlags_eq]
  split <;> rfl

theorem read_fixed {action : Action} {fixed : List Action} {tail : Option Action}
    (owed : expected.chain = ⟨action :: fixed, tail⟩) :
    expected.read grammar word =
      (.argument action expected.owner, { expected with chain := ⟨fixed, tail⟩ }) := by
  simp [read, endTail, Chain.onlyTail, Chain.next?, owed]

theorem read_tail {action : Action} (owed : expected.chain = ⟨[], some action⟩)
    (bare : looksLikeFlag word = false) :
    expected.read grammar word = (.argument action expected.owner, expected) := by
  obtain ⟨chain, owner, slots⟩ := expected
  subst owed
  simp [read, endTail, Chain.next?, bare]

theorem read_dashed (owed : expected.chain.fixed = []) (dashed : looksLikeFlag word = true) :
    ∃ owner, expected.read grammar word =
      (.flags (grammar.typedFlags word),
        { expected with chain := {}, owner }.afterFlags (grammar.typedFlags word)) := by
  obtain ⟨⟨fixed, tail⟩, owner, slots⟩ := expected
  subst owed
  cases tail with
  | none => exact ⟨owner, by simp [read, endTail, Chain.onlyTail, Chain.next?, dashed]⟩
  | some action => exact ⟨none, by simp [read, endTail, Chain.onlyTail, Chain.next?, dashed]⟩

theorem read_bare (owed : expected.chain = {}) (bare : looksLikeFlag word = false) :
    expected.read grammar word = expected.fill := by
  simp [read, endTail, Chain.next?, owed, bare]

theorem role_fill : expected.fill.1.wordClass.role = .positional := by
  unfold fill
  split <;> rfl

theorem owed_cases (expected : Expectation) (word : String) :
    (∃ action fixed tail, expected.chain = ⟨action :: fixed, tail⟩) ∨
    (expected.chain.fixed = [] ∧ looksLikeFlag word = true) ∨
    (∃ action, expected.chain = ⟨[], some action⟩ ∧ looksLikeFlag word = false) ∨
    (expected.chain = {} ∧ looksLikeFlag word = false) := by
  obtain ⟨⟨fixed, tail⟩, owner, slots⟩ := expected
  cases fixed with
  | cons action later => exact .inl ⟨action, later, tail, rfl⟩
  | nil => cases looksLikeFlag word <;> cases tail <;> simp

theorem role_read :
    (expected.read grammar word).1.wordClass.role =
      if expected.chain.fixed ≠ [] then .argument
      else if looksLikeFlag word then .flag
      else if expected.chain.tail.isSome then .argument
      else .positional := by
  rcases owed_cases expected word with
    ⟨action, fixed, tail, owed⟩ | ⟨owed, dashed⟩ | ⟨action, owed, bare⟩ | ⟨owed, bare⟩
  · simp [read_fixed owed, owed, Reading.wordClass]
  · obtain ⟨owner, read⟩ := @read_dashed grammar expected word owed dashed
    simp [read, owed, dashed, Reading.wordClass]
  · simp [read_tail owed bare, owed, bare, Reading.wordClass]
  · simp [read_bare owed bare, owed, bare, role_fill]

theorem role_read_eq_flag_iff :
    (expected.read grammar word).1.wordClass.role = .flag ↔
      expected.chain.fixed = [] ∧ looksLikeFlag word = true := by
  rw [role_read]
  obtain ⟨⟨fixed, tail⟩, owner, slots⟩ := expected
  cases fixed <;> cases tail <;> cases looksLikeFlag word <;> simp

theorem role_read_eq_positional_iff :
    (expected.read grammar word).1.wordClass.role = .positional ↔
      expected.chain = {} ∧ looksLikeFlag word = false := by
  rw [role_read]
  obtain ⟨⟨fixed, tail⟩, owner, slots⟩ := expected
  cases fixed <;> cases tail <;> cases looksLikeFlag word <;> simp

/-- Only a word that fills a slot takes slots away. -/
theorem slots_read :
    (expected.read grammar word).2.slots =
      if (expected.read grammar word).1.wordClass.role = .positional then expected.fill.2.slots
      else expected.slots := by
  rcases owed_cases expected word with
    ⟨action, fixed, tail, owed⟩ | ⟨owed, dashed⟩ | ⟨action, owed, bare⟩ | ⟨owed, bare⟩
  · simp [read_fixed owed, Reading.wordClass]
  · obtain ⟨owner, read⟩ := @read_dashed grammar expected word owed dashed
    simp [read, Reading.wordClass]
  · simp [read_tail owed bare, Reading.wordClass]
  · simp [read_bare owed bare, role_fill]

theorem mem_typed_read {typed : TypedFlag} :
    typed ∈ (expected.read grammar word).1.typed ↔
      (expected.read grammar word).1.wordClass.role = .flag ∧ typed ∈ grammar.typedFlags word := by
  rcases owed_cases expected word with
    ⟨action, fixed, tail, owed⟩ | ⟨owed, dashed⟩ | ⟨action, owed, bare⟩ | ⟨owed, bare⟩
  · simp [read_fixed owed, Reading.typed, Reading.wordClass]
  · obtain ⟨owner, read⟩ := @read_dashed grammar expected word owed dashed
    simp [read, Reading.typed, Reading.wordClass]
  · simp [read_tail owed bare, Reading.typed, Reading.wordClass]
  · rw [read_bare owed bare, fill]
    split <;> simp [Reading.typed, Reading.wordClass]

end Expectation

/-! ### Word after word -/

namespace Expectation

variable (grammar : Grammar)

theorem snd_readAll_append (expected : Expectation) (words more : List String) :
    (readAll grammar expected (words ++ more)).2 =
      (readAll grammar (readAll grammar expected words).2 more).2 := by
  induction words generalizing expected with
  | nil => rfl
  | cons word rest ih => simp [readAll, ih]

theorem getElem?_readAll (expected : Expectation) (words : List String) (index : Nat) :
    (readAll grammar expected words).1[index]? =
      words[index]?.map fun word =>
        ((readAll grammar expected (words.take index)).2.read grammar word).1 := by
  induction words generalizing expected index with
  | nil => rfl
  | cons word rest ih =>
    cases index with
    | zero => rfl
    | succ index =>
      simp only [readAll, List.getElem?_cons_succ, List.take_succ_cons]
      exact ih _ index

end Expectation

namespace Grammar

variable (grammar : Grammar)

/-- The reading of a word is a step from what is expected after the words before it. -/
theorem readings_succ (words : List String) (index : Nat) :
    (grammar.readings words)[index + 1]? =
      words[index + 1]?.map fun word =>
        ((grammar.expectation (words.take (index + 1))).read grammar word).1 := by
  cases words with
  | nil => rfl
  | cons word rest =>
    rw [readings, List.getElem?_cons_succ, Expectation.getElem?_readAll]
    rfl

theorem readings_zero (words : List String) :
    (grammar.readings words)[0]? = words[0]?.map fun _ => Reading.command := by
  cases words <;> rfl

theorem expectation_succ {words : List String} {index : Nat} {word : String}
    (found : words[index + 1]? = some word) :
    grammar.expectation (words.take (index + 2)) =
      ((grammar.expectation (words.take (index + 1))).read grammar word).2 := by
  cases words with
  | nil => cases found
  | cons first rest =>
    rw [List.getElem?_cons_succ] at found
    have split : rest.take (index + 1) = rest.take index ++ [word] := by
      rw [List.take_add_one, found, Option.toList_some]
    rw [expectation, List.take_succ_cons, List.tail_cons, split, Expectation.snd_readAll_append]
    rfl

theorem expectation_one (words : List String) :
    grammar.expectation (words.take 1) = .start grammar := by
  cases words <;> rfl

end Grammar

end ShellCompletion
