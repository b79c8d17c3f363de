import ShellCompletion.Proofs.Line.Block

/-!
# Slots and the words that fill them

The words that fill slots take them in order, whatever is typed between them, and from the first repeatable slot on
they all take that one (`slot_assignment`). What a line says does not change when the slots behind the first
repeatable one are taken away (`parse_withinReach`).
-/

namespace ShellCompletion

/-- The number of the slot for the positional word that has `count` others before it. -/
def slotNumber (slots : List Slot) (count : Nat) : Nat :=
  match slots.findIdx? Slot.repeatable with
  | some first => min count first
  | none => count

/-- The class of a word that fills the slot; without a slot nothing is suggested for it. -/
def slotClass (slot : Option Slot) : WordClass := ⟨(slot.map Slot.action).getD .nothing, .positional⟩

/-- The slots that words can fill, of which only the last may be repeatable. -/
def withinReach (slots : List Slot) : List Slot := slots.take (slots.findIdx Slot.repeatable + 1)

/-! ### The slot of a word -/

/-- Both numbers are the same where there is a slot. -/
theorem getElem?_slotsPassed (slots : List Slot) (count : Nat) :
    slots[slotsPassed slots count]? = slots[slotNumber slots count]? := by
  unfold slotsPassed slotNumber
  rw [List.findIdx_eq_getD_findIdx?]
  cases slots.findIdx? Slot.repeatable with
  | some first => rfl
  | none =>
    dsimp only [Option.getD_none]
    rcases Nat.le_total count slots.length with inside | beyond
    · rw [Nat.min_eq_left inside]
    · rw [Nat.min_eq_right beyond, List.getElem?_eq_none (Nat.le_refl _), List.getElem?_eq_none beyond]

namespace Expectation

variable {grammar : Grammar} {expected : Expectation} {word : String}

theorem wordClass_fill (expected : Expectation) : expected.fill.1.wordClass = slotClass expected.slots.head? := by
  unfold fill
  cases expected.slots <;> rfl

theorem wordClass_read_of_positional (bare : (expected.read grammar word).1.wordClass.role = .positional) :
    (expected.read grammar word).1.wordClass = slotClass expected.slots.head? := by
  obtain ⟨spent, plain⟩ := role_read_eq_positional_iff.mp bare
  rw [read_bare spent plain, wordClass_fill]

/-- The new word is up for the slot that a typed word would fill. -/
theorem newWord_of_positional (bare : expected.newWord.role = .positional) :
    expected.newWord = slotClass expected.slots.head? := by
  unfold newWord at bare ⊢
  cases owed : expected.chain.first? with
  | some action => rw [owed] at bare; cases bare
  | none => rfl

end Expectation

/-! ### Slots out of reach -/

theorem withinReach_cons (slot : Slot) (later : List Slot) :
    withinReach (slot :: later) = slot :: if slot.repeatable then [] else withinReach later := by
  unfold withinReach
  rw [List.findIdx_cons, List.take_succ_cons]
  cases slot.repeatable <;> rfl

namespace Expectation

def withinReach (expected : Expectation) : Expectation :=
  { expected with slots := ShellCompletion.withinReach expected.slots }

variable {grammar : Grammar} {expected : Expectation} {word : String}

theorem fill_withinReach (expected : Expectation) :
    expected.withinReach.fill = (expected.fill.1, expected.fill.2.withinReach) := by
  obtain ⟨chain, owner, slots⟩ := expected
  cases slots with
  | nil => rfl
  | cons slot later =>
    unfold fill withinReach
    dsimp only
    rw [withinReach_cons]
    dsimp only
    -- A repeatable slot stays in front of what is out of reach, another slot makes way for the later ones.
    cases repeats : slot.repeatable with
    | true => simp [withinReach_cons, repeats]
    | false => simp

theorem afterFlags_withinReach (expected : Expectation) (typed : List TypedFlag) :
    expected.withinReach.afterFlags typed = (expected.afterFlags typed).withinReach := by
  rw [afterFlags_eq, afterFlags_eq]
  cases lastTaker? typed <;> rfl

theorem endTail_withinReach (expected : Expectation) (word : String) :
    expected.withinReach.endTail word = (expected.endTail word).withinReach := by
  unfold endTail withinReach
  dsimp only
  split <;> rfl

/-- A step of a reading looks at the flags of the grammar only. -/
theorem read_withinReach (grammar : Grammar) (expected : Expectation) (word : String) (slots : List Slot) :
    expected.withinReach.read { grammar with slots } word =
      ((expected.read grammar word).1, (expected.read grammar word).2.withinReach) := by
  unfold read
  rw [endTail_withinReach]
  generalize expected.endTail word = here
  have chain : here.withinReach.chain = here.chain := rfl
  dsimp only
  rw [chain]
  cases here.chain.next? with
  | some step => rfl
  | none =>
    dsimp only
    split
    next => exact congrArg (Prod.mk _) (afterFlags_withinReach here _)
    next => exact fill_withinReach here

theorem readAll_withinReach (grammar : Grammar) (expected : Expectation) (words : List String) (slots : List Slot) :
    expected.withinReach.readAll { grammar with slots } words =
      ((expected.readAll grammar words).1, (expected.readAll grammar words).2.withinReach) := by
  induction words generalizing expected with
  | nil => rfl
  | cons word rest ih =>
    rw [readAll, readAll, read_withinReach]
    dsimp only
    rw [ih]

theorem newWord_withinReach (expected : Expectation) : expected.withinReach.newWord = expected.newWord := by
  have first : (ShellCompletion.withinReach expected.slots).head? = expected.slots.head? := by
    cases expected.slots with
    | nil => rfl
    | cons slot later => rw [withinReach_cons]; rfl
  unfold newWord
  rw [show expected.withinReach.slots.head? = _ from first]
  rfl

end Expectation

namespace Grammar

def withinReach (grammar : Grammar) : Grammar :=
  { grammar with slots := ShellCompletion.withinReach grammar.slots }

theorem readings_withinReach (grammar : Grammar) (words : List String) :
    grammar.withinReach.readings words = grammar.readings words := by
  cases words with
  | nil => rfl
  | cons word rest =>
    have same := Expectation.readAll_withinReach grammar (.start grammar) rest
      (ShellCompletion.withinReach grammar.slots)
    exact congrArg (Reading.command :: ·.1) same

theorem newWord_withinReach (grammar : Grammar) (words : List String) :
    (grammar.withinReach.expectation words).newWord = (grammar.expectation words).newWord := by
  have same := Expectation.readAll_withinReach grammar (.start grammar) words.tail
    (ShellCompletion.withinReach grammar.slots)
  exact (congrArg (·.2.newWord) same).trans (Expectation.newWord_withinReach _)

theorem parse_withinReach (grammar : Grammar) (words : List String) (cursor : Nat) :
    grammar.withinReach.parse words cursor = grammar.parse words cursor := by
  unfold parse
  rw [readings_withinReach, newWord_withinReach]
  rfl

/-! ### The words of a line -/

variable {grammar : Grammar} {words : List String} {cursor index : Nat}

theorem slotClass_expectation (typed : index < words.length) :
    slotClass (grammar.expectation (words.take (index + 1))).slots.head? =
      slotClass grammar.slots[slotNumber grammar.slots ((grammar.parse words cursor).filled (index + 1))]? := by
  rw [slots_expectation typed, List.head?_drop, getElem?_slotsPassed]

/-- A positional word, the new word included, is up for the slot whose number is the number of positional words
before it, but for no slot behind the first repeatable one. Those do not matter for anything that a line says. -/
theorem slot_assignment (grammar : Grammar) (words : List String) (cursor : Nat) :
    let parse := grammar.parse words cursor
    (∀ index, parse.role? index = some .positional →
      parse.class? index = some (slotClass grammar.slots[slotNumber grammar.slots (parse.filled index)]?)) ∧
    grammar.withinReach.parse words cursor = parse := by
  intro parse
  refine ⟨fun index bare => ?_, parse_withinReach grammar words cursor⟩
  rcases Nat.lt_trichotomy index words.length with typed | rfl | beyond
  · cases index with
    | zero => exact absurd bare role?_zero.2
    | succ index =>
      have found := List.getElem?_eq_getElem typed
      rw [role?_succ found, Option.some.injEq] at bare
      rw [class?_succ found, Expectation.wordClass_read_of_positional bare, slotClass_expectation (by omega)]
  · rw [Parse.role?, class?_parse_length] at bare
    rw [class?_parse_length]
    split at bare
    next new =>
      obtain ⟨last, ends⟩ : ∃ last, words.length = last + 1 := Nat.exists_eq_succ_of_ne_zero (by omega)
      rw [if_pos new, Expectation.newWord_of_positional (Option.some.inj bare)]
      have whole := @slotClass_expectation grammar words cursor last (by omega)
      rw [← ends, List.take_length] at whole
      rw [whole]
    next => cases bare
  · rw [Parse.role?, class?_parse_beyond beyond] at bare
    cases bare

/-- Between the positional words there are a flag with its argument and the arguments of a slot; the new word is up
for the repeatable slot for the second time, and nothing is ever up for the last one. -/
theorem slot_assignment_interleaved :
    let grammar : Grammar := {
      flags := [{ canonical := "-f", chain := ⟨[.state "file"], none⟩ }]
      slots := [⟨⟨[.state "host", .state "port"], none⟩, false⟩, ⟨⟨[.state "item"], none⟩, true⟩,
        ⟨⟨[.state "last"], none⟩, false⟩] }
    let words := ["run", "-f", "a", "b", "80", "-f", "c", "d"]
    let parse := grammar.parse words 8
    compile ["-f:file", ":host:port", ":*item", ":last"] = .ok grammar ∧
      parse.role? 3 = some .positional ∧ parse.class? 3 = some ⟨.state "host", .positional⟩ ∧
      parse.role? 8 = some .positional ∧ parse.filled 8 = 2 ∧ parse.class? 8 = some ⟨.state "item", .positional⟩ ∧
      grammar.withinReach.slots = grammar.slots.take 2 ∧ grammar.withinReach.parse words 8 = parse := by
  intro grammar words parse
  have first : parse.role? 3 = some .positional := rfl
  have new : parse.role? 8 = some .positional := rfl
  obtain ⟨assigned, same⟩ := slot_assignment grammar words 8
  exact ⟨rfl, first, assigned 3 first, new, rfl, assigned 8 new, rfl, same⟩

end Grammar

end ShellCompletion
