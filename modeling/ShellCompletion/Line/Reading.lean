import ShellCompletion.Grammar.Basic

/-!
# Reading a command line

The words of a line are read from left to right. While a chain is owed, a word is an argument; otherwise
a word with a dash and something after it names flags, and any other word fills the next slot. What a
word means depends on the words before it and on nothing else (`readings_append`).
-/

namespace ShellCompletion

/-- A flag that was typed; `short` when it was typed as one letter, alone or in a bundle. -/
structure TypedFlag where
  flag : Flag
  short : Bool
deriving DecidableEq, Repr

inductive Reading where
  | command
  | flags (typed : List TypedFlag)
  /-- An argument of a flag, or of a slot when there is no owner. -/
  | argument (action : Action) (owner : Option Flag)
  | positional (action : Action)
deriving DecidableEq, Repr

/-- A dash and at least one further character. -/
def looksLikeFlag (word : String) : Bool :=
  match word.toList with
  | '-' :: _ :: _ => true
  | _ => false

/-- The flags that a word names: the one it spells, or, after a single dash, one for each letter. -/
def Grammar.typedFlags (grammar : Grammar) (word : String) : List TypedFlag :=
  match grammar.flag? word, word.toList with
  | some flag, _ => [{ flag, short := isShort word }]
  | none, '-' :: '-' :: _ => []
  | none, letters =>
    (letters.drop 1).filterMap fun letter =>
      (grammar.flag? (String.ofList ['-', letter])).map fun flag => { flag, short := true }

/-- What is expected of the words that follow. -/
structure Expectation where
  chain : Chain := {}
  /-- The flag that `chain` belongs to; a chain without one belongs to a slot. -/
  owner : Option Flag := none
  slots : List Slot
deriving DecidableEq, Repr

namespace Expectation

def start (grammar : Grammar) : Expectation := { slots := grammar.slots }

/-- A repeating tail ends where a flag is typed. -/
def endTail (expected : Expectation) (word : String) : Expectation :=
  if looksLikeFlag word && expected.chain.onlyTail then
    { expected with chain := {}, owner := none }
  else expected

/-- The last flag of a word that takes arguments is the one that gets them. -/
def afterFlags (expected : Expectation) (typed : List TypedFlag) : Expectation :=
  typed.foldl (fun expected typed =>
    if typed.flag.takesArguments then
      { expected with chain := typed.flag.chain, owner := some typed.flag }
    else expected) expected

/-- A bare word fills the first slot, which stays if it is repeatable. -/
def fill (expected : Expectation) : Reading × Expectation :=
  match expected.slots with
  | [] => (.positional .nothing, expected)
  | slot :: later =>
    (.positional slot.action,
      { chain := slot.chain.rest
        owner := none
        slots := if slot.repeatable then expected.slots else later })

def read (grammar : Grammar) (expected : Expectation) (word : String) : Reading × Expectation :=
  let expected := expected.endTail word
  match expected.chain.next? with
  | some (action, chain) => (.argument action expected.owner, { expected with chain })
  | none =>
    if looksLikeFlag word then
      let typed := grammar.typedFlags word
      (.flags typed, expected.afterFlags typed)
    else expected.fill

def readAll (grammar : Grammar) (expected : Expectation) :
    List String → List Reading × Expectation
  | [] => ([], expected)
  | word :: rest =>
    let (reading, next) := expected.read grammar word
    let (readings, last) := readAll grammar next rest
    (reading :: readings, last)

theorem length_readAll (grammar : Grammar) (expected : Expectation) (words : List String) :
    (readAll grammar expected words).1.length = words.length := by
  induction words generalizing expected with
  | nil => rfl
  | cons word rest ih => simp [readAll, ih]

theorem readAll_append (grammar : Grammar) (expected : Expectation) (words more : List String) :
    (readAll grammar expected (words ++ more)).1 =
      (readAll grammar expected words).1 ++
        (readAll grammar (readAll grammar expected words).2 more).1 := by
  induction words generalizing expected with
  | nil => rfl
  | cons word rest ih => simp [readAll, ih]

end Expectation

namespace Grammar

/-- One reading for each word of the line, the command word first. -/
def readings (grammar : Grammar) : List String → List Reading
  | [] => []
  | _ :: rest => .command :: (Expectation.readAll grammar (.start grammar) rest).1

/-- What is expected after the last word of the line. -/
def expectation (grammar : Grammar) (words : List String) : Expectation :=
  (Expectation.readAll grammar (.start grammar) words.tail).2

@[simp] theorem length_readings (grammar : Grammar) (words : List String) :
    (grammar.readings words).length = words.length := by
  cases words <;> simp [readings, Expectation.length_readAll]

/-- Later words do not change what earlier words mean. -/
theorem readings_append (grammar : Grammar) (words more : List String) :
    (grammar.readings (words ++ more)).take words.length = grammar.readings words := by
  cases words with
  | nil => simp [readings]
  | cons word rest =>
    rw [List.cons_append, readings, readings, Expectation.readAll_append]
    simp [Expectation.length_readAll]

end Grammar

end ShellCompletion
