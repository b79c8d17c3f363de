import ShellCompletion.Grammar.Basic
import ShellCompletion.Grammar.Fault
import ShellCompletion.Text.Alphanumeric
import ShellCompletion.Text.Blank
import ShellCompletion.Text.Cut

/-!
# Reading a grammar token

A token opens or closes a named set (`+name`, `+`), adds a slot (`:action`, `:*action`) or declares a
flag: an optional group `(id)`, an optional star, one spelling or a brace list of spellings and sets,
and an optional list of actions. `Declaration.read` takes one token apart; it needs the named sets that
are known so far, because a set stands for its spellings.
-/

namespace ShellCompletion

open Text

structure FlagDeclaration where
  group : Option String
  repeatable : Bool
  first : String
  others : List String
  /-- The actions, if the token lists any. -/
  chain : Option Chain
deriving DecidableEq, Repr

/-- The spellings a flag token mentions, each once, in order. -/
def FlagDeclaration.spellings (flag : FlagDeclaration) : List String := flag.first :: flag.others

inductive Declaration where
  | set (name : Option String)
  | slot (slot : Slot)
  | flag (flag : FlagDeclaration)
deriving DecidableEq, Repr

namespace Declaration

def isNameStart (c : Char) : Bool := isAlphanumeric c || c == '_'

def isNameChar (c : Char) : Bool := isAlphanumeric c || c == '_' || c == '-' || c == '.'

def isName : List Char → Bool
  | [] => false
  | c :: rest => isNameStart c && rest.all isNameChar

def readName (text : List Char) : Except Fault String :=
  if isName text then .ok (String.ofList text) else .error (.badName (String.ofList text))

def isSpellingChar (c : Char) : Bool := !isBlank c && c ∉ ['{', '}', ',', ':', '(', ')']

/-- A dash and at least one further character, none of them blank or a mark of the token language. -/
def isSpelling : List Char → Bool
  | '-' :: c :: rest => (c :: rest).all isSpellingChar
  | _ => false

def readSpelling (text : List Char) : Except Fault String :=
  if text.isEmpty then .error .noSpelling
  else if isSpelling text then .ok (String.ofList text)
  else .error (.badSpelling (String.ofList text))

def readAction (text : List Char) : Except Fault Action :=
  match text.reverse with
  | [] => .ok .nothing
  | ['-'] => .ok .literal
  | ')' :: '(' :: name => .function <$> readName name.reverse
  | _ =>
    if '(' ∈ text then .error (.unclosedFunction (String.ofList text))
    else .state <$> readName text

/-- Reads the actions of a chain; a star marks the last one as the tail. -/
def readChain : List (List Char) → Except Fault Chain
  | [] => .ok {}
  | ['*' :: body] => do return { tail := some (← readAction body) }
  | ('*' :: body) :: _ => .error (.misplacedRepeat (String.ofList body))
  | body :: rest => do
    let action ← readAction body
    let chain ← readChain rest
    return { chain with fixed := action :: chain.fixed }

def readActions (text : List Char) : Except Fault Chain := readChain (text.splitOn ':')

/-- The spellings that one item of a brace list stands for. -/
def readItem (sets : String → Option (List String)) (item : List Char) :
    Except Fault (List String) :=
  match trim item with
  | '@' :: name =>
    match sets (String.ofList name) with
    | some members => .ok members
    | none => .error (.unknownSet (String.ofList name))
  | spelling => (fun spelling => [spelling]) <$> readSpelling spelling

def readItems (sets : String → Option (List String)) : List (List Char) → Except Fault (List String)
  | [] => .ok []
  | item :: rest => do return (← readItem sets item) ++ (← readItems sets rest)

/-- Splits a leading group `(id)` off a token. -/
def readGroup : List Char → Except Fault (Option String × List Char)
  | '(' :: inner =>
    match cut? ')' inner with
    | none => .error .unclosedGroup
    | some (id, rest) =>
      match trim id with
      | [] => .error .blankGroup
      | id => .ok (some (String.ofList id), rest)
  | token => .ok (none, token)

def readStar : List Char → Bool × List Char
  | '*' :: rest => (true, rest)
  | text => (false, text)

/-- The fault of a text that stands where a spelling or a brace list is expected. A token with neither
group nor star before it has no known form. -/
def missingSpelling (marked : Bool) (text : List Char) : Fault :=
  if !marked then .unknownForm
  else
    match text.takeWhile (· != ':') with
    | [] => .noSpelling
    | spelling => .badSpelling (String.ofList spelling)

/-- The spellings of a flag token and the text of its actions, if it has any. -/
def readSpellings (sets : String → Option (List String)) (marked : Bool) (text : List Char) :
    Except Fault (List String × Option (List Char)) :=
  match text with
  | '{' :: inner =>
    match cut? '}' inner with
    | none => .error .unclosedAliases
    | some (items, []) => do return (← readItems sets (items.splitOn ','), none)
    | some (items, ':' :: actions) => do return (← readItems sets (items.splitOn ','), some actions)
    | some (_, after) => .error (.badSpelling (String.ofList after))
  | '-' :: _ =>
    match cut? ':' text with
    | none => do return ([← readSpelling text], none)
    | some (spelling, actions) => do return ([← readSpelling spelling], some actions)
  | _ => .error (missingSpelling marked text)

def readFlag (sets : String → Option (List String)) (token : List Char) :
    Except Fault FlagDeclaration := do
  let (group, rest) ← readGroup token
  let (repeatable, rest) := readStar rest
  let (spellings, actions) ← readSpellings sets (group.isSome || repeatable) rest
  match Names.addNew [] spellings with
  | [] => .error .noSpelling
  | first :: others => do
    let chain ← actions.mapM readActions
    return { group, repeatable, first, others, chain }

def readSlot (text : List Char) : Except Fault Slot := do
  let (repeatable, body) := readStar text
  return { chain := ← readActions body, repeatable }

def read (sets : String → Option (List String)) (token : String) : Except Fault Declaration :=
  match token.toList with
  | [] => .error .emptyToken
  | ['+'] => .ok (.set none)
  | '+' :: name => do return .set (some (← readName name))
  | ':' :: body => .slot <$> readSlot body
  | token => .flag <$> readFlag sets token

end Declaration

end ShellCompletion
