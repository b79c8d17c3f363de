import ShellCompletion.Grammar.Chain
import ShellCompletion.Names

/-!
# Grammars

A grammar holds the flags of one command in the order of their declaration, its positional slots, and
the named sets of spellings that were collected on the way. Everything else is a view of these: the
record a spelling is bound to, and the groups of flags that exclude each other.
-/

namespace ShellCompletion

/-- One option with all of its spellings; no arguments follow it when `chain` is empty. -/
structure Flag where
  canonical : String
  aliases : List String := []
  explicitGroup : Option String := none
  chain : Chain := {}
  repeatable : Bool := false
deriving DecidableEq, Repr

namespace Flag

def spellings (flag : Flag) : List String := flag.canonical :: flag.aliases

/-- A flag without an explicit group excludes itself under its canonical spelling, unless it may be
repeated. -/
def group (flag : Flag) : Option String :=
  match flag.explicitGroup with
  | some id => some id
  | none => if flag.repeatable then none else some flag.canonical

def takesArguments (flag : Flag) : Bool := !flag.chain.isEmpty

end Flag

/-- The rule for one bare word; a repeatable slot stays in place for all further ones. -/
structure Slot where
  chain : Chain
  repeatable : Bool
deriving DecidableEq, Repr

/-- The action of the first word that fills the slot. -/
def Slot.action (slot : Slot) : Action := slot.chain.first?.getD .nothing

structure Group where
  id : String
  members : List String
  /-- No flag is in the group by an explicit mark. -/
  implicit : Bool
deriving DecidableEq, Repr

structure Grammar where
  flags : List Flag := []
  slots : List Slot := []
  /-- Named sets of spellings in the order in which they were opened. -/
  sets : List (String × List String) := []
deriving DecidableEq, Repr

namespace Grammar

def flag? (grammar : Grammar) (spelling : String) : Option Flag :=
  grammar.flags.find? (spelling ∈ ·.spellings)

/-- The position of the flag that `spelling` is bound to. -/
def flagId? (grammar : Grammar) (spelling : String) : Option Nat :=
  grammar.flags.findIdx? (spelling ∈ ·.spellings)

/-- Every spelling, ascending. -/
def spellings (grammar : Grammar) : List String :=
  Names.ofList (grammar.flags.flatMap Flag.spellings)

/-- The spellings that exclude each other under the group `id`. -/
def members (grammar : Grammar) (id : String) : List String :=
  Names.ofList ((grammar.flags.filter (·.group == some id)).flatMap Flag.spellings)

def groupIds (grammar : Grammar) : List String :=
  Names.ofList (grammar.flags.filterMap Flag.group)

def group? (grammar : Grammar) (id : String) : Option Group :=
  if id ∈ grammar.groupIds then
    some {
      id
      members := grammar.members id
      implicit := !grammar.flags.any (·.explicitGroup == some id) }
  else none

/-- The groups by ascending id. -/
def groups (grammar : Grammar) : List Group := grammar.groupIds.filterMap grammar.group?

def groupOf? (grammar : Grammar) (spelling : String) : Option Group :=
  (grammar.flag? spelling).bind fun flag => flag.group.bind grammar.group?

def namedSet? (grammar : Grammar) (name : String) : Option (List String) := grammar.sets.lookup name

/-- The spellings that a use of `flag` takes out of the suggestions. -/
def rivals (grammar : Grammar) (flag : Flag) : List String :=
  match flag.group with
  | some id => grammar.members id
  | none => []

end Grammar

/-- A dash and one character that is not a dash. -/
def isShort (spelling : String) : Bool :=
  match spelling.toList with
  | ['-', c] => c != '-'
  | _ => false

end ShellCompletion
