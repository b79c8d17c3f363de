import ShellCompletion.Grammar.Compile
import ShellCompletion.Proofs.Line.Parse

/-!
# Argument blocks

A word that names flags or fills a slot leaves actions owed (`Grammar.owed`). The words after it are
arguments by these actions, in order and whatever they look like, and then by the repeating tail up to
the next word that looks like a flag (`argument_block`).
-/

namespace ShellCompletion

/-- The number of words before `index` that fill a slot. -/
def Parse.filled (parse : Parse) (index : Nat) : Nat :=
  (parse.classes.take index).countP (·.role = .positional)

/-- How many slots `count` bare words use up; a repeatable slot is never used up. -/
def slotsPassed (slots : List Slot) (count : Nat) : Nat := min count (slots.findIdx Slot.repeatable)

/-- What the last flag to take arguments asks for. -/
def lastChain (typed : List TypedFlag) : Chain :=
  ((typed.map (·.flag.chain)).filter (!·.isEmpty)).getLast?.getD {}

/-- The number of words after `index` before one looks like a flag. -/
def bareRun (words : List String) (index : Nat) : Nat := (words.drop (index + 1)).findIdx looksLikeFlag

namespace Grammar

/-- The slot for the bare word that has `count` others before it. -/
def slot? (grammar : Grammar) (count : Nat) : Option Slot := grammar.slots[slotsPassed grammar.slots count]?

/-- The actions that the word at `index` leaves owed: those of the last flag it names that takes
arguments, or those that the chain of the slot it fills has after the first. -/
def owed (grammar : Grammar) (words : List String) (cursor index : Nat) : Chain :=
  let parse := grammar.parse words cursor
  match parse.role? index, words[index]? with
  | some .flag, some word => lastChain (grammar.typedFlags word)
  | some .positional, some _ => ((grammar.slot? (parse.filled index)).map (·.chain.rest)).getD {}
  | _, _ => {}

variable {grammar : Grammar} {words : List String} {cursor index : Nat} {word : String}

/-! ### What is owed after a flag -/

theorem chain_afterFlags (expected : Expectation) (typed : List TypedFlag) :
    (expected.afterFlags typed).chain =
      ((typed.map (·.flag.chain)).filter (!·.isEmpty)).getLast?.getD expected.chain := by
  have takers : (typed.map (·.flag.chain)).filter (!·.isEmpty) =
      ((typed.map (·.flag)).filter Flag.takesArguments).map Flag.chain := by
    rw [List.filter_map, List.filter_map, List.map_map]
    rfl
  rw [Expectation.afterFlags_eq, takers, List.getLast?_map, ← lastTaker?]
  cases lastTaker? typed <;> rfl

/-! ### The slots that are left -/

theorem filled_succ (parse : Parse) (index : Nat) :
    parse.filled (index + 1) =
      parse.filled index + if parse.role? index = some .positional then 1 else 0 := by
  unfold Parse.filled Parse.role? Parse.class?
  rw [List.take_add_one, List.countP_append]
  cases parse.classes[index]? <;> simp [List.countP_cons]

theorem slotsPassed_le (slots : List Slot) (count : Nat) : slotsPassed slots count ≤ slots.length :=
  Nat.le_trans (Nat.min_le_right ..) List.findIdx_le_length

theorem slotsPassed_succ {slots : List Slot} {count : Nat} {slot : Slot}
    (next : slots[slotsPassed slots count]? = some slot) :
    slotsPassed slots (count + 1) = slotsPassed slots count + if slot.repeatable then 0 else 1 := by
  obtain ⟨inside, same⟩ := List.getElem?_eq_some_iff.mp next
  unfold slotsPassed at inside same ⊢
  split
  next repeating =>
    have reached : ¬ min count (slots.findIdx Slot.repeatable) < slots.findIdx Slot.repeatable := by
      intro before
      have single := List.not_of_lt_findIdx before
      rw [same, repeating] at single
      cases single
    omega
  next single =>
    have before : min count (slots.findIdx Slot.repeatable) ≠ slots.findIdx Slot.repeatable := by
      intro reached
      have repeating := List.findIdx_getElem (w := reached ▸ inside)
      exact single (by rw [← same]; simpa only [reached] using repeating)
    omega

theorem slotsPassed_succ_of_none {slots : List Slot} {count : Nat} (none : slots[slotsPassed slots count]? = none) :
    slotsPassed slots (count + 1) = slotsPassed slots count := by
  have bound := List.getElem?_eq_none_iff.mp none
  have bounded := slotsPassed_le slots (count + 1)
  unfold slotsPassed at *
  omega

theorem slots_fill {expected : Expectation} {slots : List Slot} {count : Nat}
    (left : expected.slots = slots.drop (slotsPassed slots count)) :
    expected.fill.2.slots = slots.drop (slotsPassed slots (count + 1)) := by
  have head : slots[slotsPassed slots count]? = expected.slots.head? := by rw [left, List.head?_drop]
  have tail : expected.slots.tail = slots.drop (slotsPassed slots count + 1) := by rw [left, List.tail_drop]
  unfold Expectation.fill
  split
  next empty =>
    rw [empty, List.head?_nil] at head
    rw [slotsPassed_succ_of_none head, ← left]
  next slot later cut =>
    rw [cut, List.head?_cons] at head
    rw [cut, List.tail_cons] at tail
    rw [slotsPassed_succ head]
    split
    next => exact left
    next => exact tail

theorem slots_expectation (typed : index < words.length) :
    (grammar.expectation (words.take (index + 1))).slots =
      grammar.slots.drop (slotsPassed grammar.slots ((grammar.parse words cursor).filled (index + 1))) := by
  induction index with
  | zero =>
    have none : (grammar.parse words cursor).filled 1 = 0 := by
      rw [filled_succ, Parse.role?, class?_parse typed, readings_zero, List.getElem?_eq_getElem typed]
      rfl
    rw [expectation_one, none, slotsPassed, Nat.zero_min, List.drop_zero, Expectation.start]
  | succ index ih =>
    have found : words[index + 1]? = some words[index + 1] := List.getElem?_eq_getElem typed
    rw [expectation_succ grammar found, Expectation.slots_read, filled_succ, role?_succ found]
    -- The words that take a slot are those that `filled` counts.
    split
    next bare =>
      rw [if_pos (by rw [bare])]
      exact slots_fill (ih (by omega))
    next other =>
      rw [if_neg (by simpa using other)]
      exact ih (by omega)

/-! ### The block -/

theorem chain_owed
    (opens : (grammar.parse words cursor).role? index = some .flag ∨
      (grammar.parse words cursor).role? index = some .positional)
    (found : words[index]? = some word) :
    (grammar.expectation (words.take (index + 1))).chain = grammar.owed words cursor index := by
  cases index with
  | zero => exact absurd opens (not_or.mpr role?_zero)
  | succ index =>
    obtain ⟨typed, -⟩ := List.getElem?_eq_some_iff.mp found
    have role : (grammar.parse words cursor).role? (index + 1) = _ := role?_succ found
    rw [expectation_succ grammar found]
    unfold owed
    rcases opens with flag | bare
    · simp only [flag, found]
      rw [flag, Option.some_inj, eq_comm, Expectation.role_read_eq_flag_iff] at role
      obtain ⟨owner, read⟩ := @Expectation.read_dashed grammar _ _ role.1 role.2
      rw [read, chain_afterFlags, lastChain]
    · simp only [bare, found]
      rw [bare, Option.some_inj, eq_comm, Expectation.role_read_eq_positional_iff] at role
      rw [Expectation.read_bare role.1 role.2, slot?, ← List.head?_drop,
        ← slots_expectation (by omega : index < words.length), Expectation.fill]
      split
      next empty => rw [empty, role.1]; rfl
      next slot later cut => rw [cut]; rfl

theorem chain_fixed {fixed : List Action} {tail : Option Action}
    (after : (grammar.expectation (words.take (index + 1))).chain = ⟨fixed, tail⟩) {count : Nat}
    (within : count ≤ fixed.length) (typed : index + count < words.length) :
    (grammar.expectation (words.take (index + count + 1))).chain = ⟨fixed.drop count, tail⟩ := by
  induction count with
  | zero => exact after
  | succ count ih =>
    have found : words[index + count + 1]? = some words[index + count + 1] := List.getElem?_eq_getElem typed
    have before := ih (by omega) (by omega)
    rw [List.drop_eq_getElem_cons within] at before
    rw [← Nat.add_assoc, expectation_succ grammar found, Expectation.read_fixed before]

theorem bare_of_lt_bareRun {count : Nat} (within : count < bareRun words index) :
    ∃ word, words[index + count + 1]? = some word ∧ looksLikeFlag word = false := by
  have typed : count < (words.drop (index + 1)).length :=
    Nat.lt_of_lt_of_le within List.findIdx_le_length
  have bare := List.not_of_lt_findIdx within
  refine ⟨_, ?_, bare⟩
  rw [← List.getElem?_eq_getElem typed, List.getElem?_drop, Nat.add_right_comm]

theorem dashed_of_bareRun (typed : index + bareRun words index + 1 < words.length) :
    ∃ word, words[index + bareRun words index + 1]? = some word ∧ looksLikeFlag word = true := by
  unfold bareRun at typed ⊢
  have inside : (words.drop (index + 1)).findIdx looksLikeFlag < (words.drop (index + 1)).length := by
    rw [List.length_drop]
    omega
  refine ⟨_, ?_, List.findIdx_getElem (w := inside)⟩
  rw [← List.getElem?_eq_getElem inside, List.getElem?_drop, Nat.add_right_comm]

theorem chain_tail {action : Action}
    (after : (grammar.expectation (words.take (index + 1))).chain = ⟨[], some action⟩) {count : Nat}
    (within : count ≤ bareRun words index) :
    (grammar.expectation (words.take (index + count + 1))).chain = ⟨[], some action⟩ := by
  induction count with
  | zero => exact after
  | succ count ih =>
    obtain ⟨word, found, bare⟩ := bare_of_lt_bareRun within
    have before := ih (by omega)
    rw [← Nat.add_assoc, expectation_succ grammar found, Expectation.read_tail before bare]
    exact before

theorem class?_fixed {fixed : List Action} {tail : Option Action}
    (after : (grammar.expectation (words.take (index + 1))).chain = ⟨fixed, tail⟩) {count : Nat}
    {action : Action} (owes : fixed[count]? = some action) (typed : index + count + 1 < words.length) :
    (grammar.parse words cursor).class? (index + count + 1) = some ⟨action, .argument⟩ := by
  obtain ⟨inside, same⟩ := List.getElem?_eq_some_iff.mp owes
  have before := chain_fixed after (by omega) (by omega : index + count < words.length)
  rw [List.drop_eq_getElem_cons inside, same] at before
  rw [class?_succ (List.getElem?_eq_getElem typed), Expectation.read_fixed before]
  rfl

theorem class?_tail {action : Action}
    (after : (grammar.expectation (words.take (index + 1))).chain = ⟨[], some action⟩) {count : Nat}
    (within : count < bareRun words index) :
    (grammar.parse words cursor).class? (index + count + 1) = some ⟨action, .argument⟩ := by
  obtain ⟨word, found, bare⟩ := bare_of_lt_bareRun within
  rw [class?_succ found, Expectation.read_tail (chain_tail after (by omega)) bare]
  rfl

theorem role?_bareRun {action : Action}
    (after : (grammar.expectation (words.take (index + 1))).chain = ⟨[], some action⟩)
    (typed : index + bareRun words index + 1 < words.length) :
    (grammar.parse words cursor).role? (index + bareRun words index + 1) = some .flag := by
  obtain ⟨word, found, dashed⟩ := dashed_of_bareRun typed
  have before := chain_tail after (Nat.le_refl _)
  rw [role?_succ found, Expectation.role_read_eq_flag_iff.mpr ⟨by rw [before], dashed⟩]

theorem role?_ne_argument (after : (grammar.expectation (words.take (index + 1))).chain = {}) :
    (grammar.parse words cursor).role? (index + 1) ≠ some .argument := by
  rcases Nat.lt_trichotomy (index + 1) words.length with typed | last | beyond
  · rw [role?_succ (List.getElem?_eq_getElem typed), Expectation.role_read, after]
    split
    next owes => exact absurd rfl owes
    next => split <;> simp
  · rw [last, List.take_length] at after
    rw [last, Parse.role?, class?_parse_length, Expectation.newWord, after]
    split <;> simp [Chain.first?, Chain.next?]
  · simp [Parse.role?, class?_parse_beyond beyond]

/-- After a word that names flags or fills a slot, the words that are arguments are those the fixed
actions are owed to, whatever they look like, and then, if the chain has a tail, the run of words that
do not look like flags. The word after a chain without a tail is not an argument, and the word that ends
a run is read as flags. -/
theorem argument_block
    (opens : (grammar.parse words cursor).role? index = some .flag ∨
      (grammar.parse words cursor).role? index = some .positional) :
    let parse := grammar.parse words cursor
    let owed := grammar.owed words cursor index
    let last := index + owed.fixed.length
    (∀ count action, owed.fixed[count]? = some action → index + count + 1 < words.length →
      parse.class? (index + count + 1) = some ⟨action, .argument⟩) ∧
    (owed.tail = none → parse.role? (last + 1) ≠ some .argument) ∧
    ∀ action, owed.tail = some action →
      (∀ count < bareRun words last, parse.class? (last + count + 1) = some ⟨action, .argument⟩) ∧
      (last + bareRun words last + 1 < words.length →
        parse.role? (last + bareRun words last + 1) = some .flag) := by
  intro parse owed last
  have after (typed : index < words.length) :
      (grammar.expectation (words.take (index + 1))).chain = ⟨owed.fixed, owed.tail⟩ :=
    chain_owed opens (List.getElem?_eq_getElem typed)
  refine ⟨fun count action owes typed => class?_fixed (after (by omega)) owes typed, ?_⟩
  by_cases typed : last < words.length
  · have spent := chain_fixed (after (by omega)) (Nat.le_refl _) typed
    rw [List.drop_length] at spent
    constructor
    · intro finite
      rw [finite] at spent
      exact role?_ne_argument spent
    · intro action repeats
      rw [repeats] at spent
      exact ⟨fun count within => class?_tail spent within, role?_bareRun spent⟩
  -- Otherwise the line ends before the fixed actions do.
  · have none : bareRun words last = 0 := by
      rw [bareRun, List.drop_eq_nil_of_le (by omega), List.findIdx_nil]
    constructor
    · intro _
      simp [parse, Parse.role?, class?_parse_beyond (by omega : words.length < last + 1)]
    · intro action _
      exact ⟨fun count within => by omega, fun inside => by omega⟩

/-- The first argument looks like a flag here, and the tail ends at the second `-f`. -/
theorem argument_block_tail :
    let grammar : Grammar :=
      { flags := [{ canonical := "-f", chain := ⟨[.state "name"], some (.state "file")⟩ }] }
    let words := ["run", "-f", "-x", "a", "b", "-f"]
    let parse := grammar.parse words 0
    compile ["-f:name:*file"] = .ok grammar ∧
      parse.role? 1 = some .flag ∧
      grammar.owed words 0 1 = ⟨[.state "name"], some (.state "file")⟩ ∧
      parse.class? 2 = some ⟨.state "name", .argument⟩ ∧
      (∀ count < 2, parse.class? (2 + count + 1) = some ⟨.state "file", .argument⟩) ∧
      parse.role? 5 = some .flag := by
  intro grammar words parse
  have opens : parse.role? 1 = some .flag := rfl
  have owes : grammar.owed words 0 1 = ⟨[.state "name"], some (.state "file")⟩ := rfl
  have two : bareRun words 2 = 2 := rfl
  obtain ⟨fixed, -, tail⟩ := argument_block (.inl opens)
  rw [owes] at fixed tail
  obtain ⟨between, after⟩ := tail (.state "file") rfl
  rw [List.length_singleton, two] at between after
  exact ⟨rfl, opens, owes, fixed 0 _ rfl (by decide), between, after (by decide)⟩

end Grammar

end ShellCompletion
