import ShellCompletion.Line.Reading

/-!
# What a line says

`Grammar.parse` gathers the readings of a line around the word that is being completed: the positional
words, the flags that were typed, the spellings they exclude, the arguments they captured, and the
action and role of every word.
-/

namespace ShellCompletion

inductive Role where
  | command
  | flag
  | argument
  | positional
deriving DecidableEq, Repr

structure WordClass where
  action : Action
  role : Role
deriving DecidableEq, Repr

namespace Reading

def wordClass : Reading → WordClass
  | .command => ⟨.nothing, .command⟩
  | .flags _ => ⟨.literal, .flag⟩
  | .argument action _ => ⟨action, .argument⟩
  | .positional action => ⟨action, .positional⟩

def typed : Reading → List TypedFlag
  | .flags typed => typed
  | _ => []

/-- The word belongs to the positional words: it fills a slot or is an argument of one. -/
def isText : Reading → Bool
  | .argument _ none => true
  | .positional _ => true
  | _ => false

/-- The flag that captures the word. -/
def owner? : Reading → Option Flag
  | .argument _ owner => owner
  | _ => none

end Reading

/-- How a word that has not been typed yet is going to be read, unless it turns out to be a flag. -/
def Expectation.newWord (expected : Expectation) : WordClass :=
  match expected.chain.first? with
  | some action => ⟨action, .argument⟩
  | none => ⟨(expected.slots.head?.map Slot.action).getD .nothing, .positional⟩

structure Parse where
  /-- The positional words in order. -/
  line : List String := []
  /-- Every spelling of every flag that was typed, ascending. -/
  opts : List String := []
  /-- The spellings that are no longer eligible, ascending. -/
  excluded : List String := []
  cursor : Nat := 0
  /-- The text of the word at the cursor, empty for a word that is not typed yet. -/
  current : String := ""
  /-- The words each spelling captured, by ascending spelling. -/
  arguments : List (String × List String) := []
  /-- The class of each word, and of the new word if the cursor is on it. -/
  classes : List WordClass := []
deriving DecidableEq, Repr

namespace Parse

def class? (parse : Parse) (index : Nat) : Option WordClass := parse.classes[index]?

def role? (parse : Parse) (index : Nat) : Option Role := (parse.class? index).map (·.role)

/-- The action for the word at the cursor; flags are offered where nothing is known of the word. -/
def action (parse : Parse) : Action :=
  ((parse.class? parse.cursor).map (·.action)).getD .literal

def role (parse : Parse) : Option Role := parse.role? parse.cursor

def hasFlag (parse : Parse) (spelling : String) : Bool := spelling ∈ parse.opts

def values (parse : Parse) (spelling : String) : List String :=
  (parse.arguments.lookup spelling).getD []

/-- The captured words of a flag joined by colons, if there are any. -/
def joinedValues? (parse : Parse) (spelling : String) : Option String :=
  (parse.arguments.lookup spelling).map ":".intercalate

end Parse

namespace Grammar

/-- The spellings excluded by the flags that `reading` names. At the cursor only a flag typed as a
letter counts, because a longer spelling may still be edited into another. -/
def spent (grammar : Grammar) (atCursor : Bool) (reading : Reading) : List String :=
  (reading.typed.filter fun typed => !typed.flag.repeatable && (!atCursor || typed.short)).flatMap
    fun typed => grammar.rivals typed.flag

/-- The words that the flag with `spelling` captured. -/
def captured (spelling : String) (read : List (Reading × String)) : List String :=
  read.filterMap fun (reading, word) =>
    if (reading.owner?.map Flag.spellings).any (spelling ∈ ·) then some word else none

def parse (grammar : Grammar) (words : List String) (cursor : Nat) : Parse :=
  let readings := grammar.readings words
  let read := readings.zip words
  let owners := Names.ofList ((readings.filterMap Reading.owner?).flatMap Flag.spellings)
  let newWord :=
    if cursor = words.length ∧ 0 < cursor then [(grammar.expectation words).newWord] else []
  { line := (read.filter (·.1.isText)).map (·.2)
    opts := Names.ofList ((readings.flatMap Reading.typed).flatMap (·.flag.spellings))
    excluded := Names.ofList
      (readings.zipIdx.flatMap fun (reading, index) => grammar.spent (index == cursor) reading)
    cursor
    current := words[cursor]?.getD ""
    arguments := owners.map fun spelling => (spelling, captured spelling read)
    classes := readings.map Reading.wordClass ++ newWord }

end Grammar

end ShellCompletion
