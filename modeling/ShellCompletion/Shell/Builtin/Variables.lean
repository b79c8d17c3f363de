import ShellCompletion.Shell.Builtin.Basic

/-!
# Builtins for variables and options
-/

namespace ShellCompletion.Shell.Builtin

open Text (Octets)
open Kernel ShellCompletion.Shell.Action

/-- Lists variables by their names. -/
def listVariables (start : String) (shown : Binding → Bool) : Action Nat := do
  let bindings := (← get).bindings.filter (shown ·.2)
  let sorted := bindings.mergeSort fun a b => Action.comesBefore a.1 b.1
  forEach sorted fun (name, binding) =>
    match binding.value with
    | some value => putLine (start.toList ++ name ++ '=' :: quote value)
    | none => putLine (start.toList ++ name)
  return 0

/-- Marks variables, which get values on the way. -/
def declare (name : String) (mark : Binding → Binding) (isMarked : Binding → Bool)
    (arguments : List Octets) : Action Nat := do
  let (found, names) ← optionsOf "p" "" arguments
  if !found.isEmpty || names.isEmpty then listVariables (name ++ " ") isMarked
  else
    forEach names fun text => do
      let (name, value) := splitAssignment text
      match value, (← get).binding? name with
      | none, some binding => modify (·.setBinding name (mark binding))
      | value, _ =>
        assign name value
        match (← get).binding? name with
        | some binding => modify (·.setBinding name (mark binding))
        | none => pure ()
    return 0

def exportVariables : List Octets → Action Nat :=
  declare "export" ({ · with isExported := true }) (·.isExported)

def makeReadOnly : List Octets → Action Nat :=
  declare "readonly" ({ · with isReadOnly := true }) (·.isReadOnly)

def makeLocals (arguments : List Octets) : Action Nat := do
  if (← get).locals.isEmpty then failUsage "not in a function"
  forEach arguments fun text =>
    let (name, value) := splitAssignment text
    makeLocal name value
  return 0

def unsetNames (arguments : List Octets) : Action Nat := do
  let (found, names) ← optionsOf "vf" "" arguments
  let ofFunctions := found.getLast?.any (·.1 == 'f')
  forEach names fun name =>
    if ofFunctions then
      modify fun state => { state with functions := state.functions.filter (·.1 != name) }
    else unset name
  return 0

def shift (arguments : List Octets) : Action Nat := do
  let count ← match arguments with
    | [] => pure 1
    | argument :: _ => number argument
  let state ← get
  if state.arguments.length < count then failUsage "can't shift that many"
  set { state with
    arguments := state.arguments.drop count, optionIndex := 1, optionOffset := none }
  return 0

/-! ### Options of the shell -/

/-- The options by name and by letter, if they have one. -/
def shellOptions : List (String × Char) := [
  ("errexit", 'e'), ("noglob", 'f'), ("ignoreeof", 'I'), ("interactive", 'i'), ("monitor", 'm'),
  ("noexec", 'n'), ("stdin", 's'), ("xtrace", 'x'), ("verbose", 'v'), ("vi", 'V'), ("emacs", 'E'),
  ("noclobber", 'C'), ("allexport", 'a'), ("notify", 'b'), ("nounset", 'u'), ("privileged", 'p'),
  ("nolog", '1'), ("debug", '2')]

def turn (letter : Char) (on : Bool) : Action Unit := modify fun state =>
  let options := state.options.filter (· != letter)
  { state with options := if on then letter :: options else options }

def turnByName (name : Octets) (on : Bool) : Action Unit :=
  match shellOptions.lookup (String.ofList name) with
  | some letter => turn letter on
  | none => fail (Text.encode "Illegal option -o " ++ name)

def listOptions (asCommands : Bool) : Action Unit := do
  let state ← get
  if !asCommands then putText "Current option settings\n"
  forEach shellOptions fun (name, letter) =>
    let on := state.has letter
    if asCommands then putText ("set " ++ (if on then "-o " else "+o ") ++ name ++ "\n")
    else
      let blanks := String.ofList (List.replicate (16 - name.length) ' ')
      putText (name ++ blanks ++ (if on then "on" else "off") ++ "\n")

/-- Turns on or off the options whose letters follow a sign. An `o` takes a name from the arguments. -/
def turnLetters (on : Bool) : Octets → List Octets → Action (List Octets)
  | [], rest => pure rest
  | 'o' :: letters, rest => do
    match rest with
    | [] => listOptions (!on)
    | name :: _ => turnByName name on
    turnLetters on letters (rest.drop 1)
  | letter :: letters, rest => do
    if shellOptions.any fun entry => entry.2 == letter && letter.isAlpha then turn letter on
    else failUsage ("Illegal option -" ++ toString letter)
    turnLetters on letters rest

def setArguments (arguments : List Octets) : Action Unit :=
  modify ({ · with arguments, optionIndex := 1, optionOffset := none })

/-- Reads options; the rest are arguments, which replace the old ones if there are any or if a mark says so. -/
def readOptions : Nat → List Octets → Action Unit
  | 0, _ => pure ()
  | fuel + 1, arguments =>
    match arguments with
    | [] => pure ()
    | ['-'] :: rest => do
      turn 'x' false
      turn 'v' false
      if !rest.isEmpty then setArguments rest
    | ['-', '-'] :: rest => setArguments rest
    | ('-' :: letters) :: rest => do
      readOptions fuel (← turnLetters true letters rest)
    | ('+' :: letters) :: rest => do
      readOptions fuel (← turnLetters false letters rest)
    | arguments => setArguments arguments

def setOptions (arguments : List Octets) : Action Nat := do
  if arguments.isEmpty then listVariables "" (·.value.isSome)
  else
    readOptions (arguments.length + 1) arguments
    return 0

/-! ### Reading options of a script -/

/-- What `getopts` finds: a letter, the argument of an option, and where it goes on. -/
structure Found where
  letter : Char
  argument : Option Octets
  index : Nat
  offset : Option Nat
  complaint : Option String := none

/-- The letter is an option, and whether it takes an argument. -/
def lookOption (letter : Char) : Octets → Option Bool
  | [] => none
  | c :: ':' :: rest => if c == letter then some true else lookOption letter rest
  | c :: rest => if c == letter then some false else lookOption letter rest

/-- Finds the next option among the arguments. At their end, gives the index of the first argument that
is no option. -/
def nextOption (spec : Octets) (arguments : List Octets) (index : Nat) (offset : Option Nat) :
    Except Nat Found :=
  let current : Octets :=
    match offset with
    | some offset => if index ≤ 1 then [] else (arguments[index - 2]?.getD []).drop offset
    | none => []
  let start : Except Nat (Octets × Nat) :=
    if current.isEmpty then
      match arguments[index - 1]? with
      | some ['-', '-'] => .error (index + 1)
      | some ('-' :: c :: rest) => .ok (c :: rest, index + 1)
      | _ => .error index
    else .ok (current, index)
  match start with
  | .error index => .error index
  | .ok (letters, index) =>
    let isQuiet := spec.head? == some ':'
    let letter := letters.headD '?'
    let rest := letters.drop 1
    let word := arguments[index - 2]?.getD []
    let offset := some (word.length - rest.length)
    match lookOption letter spec with
    | none =>
      if isQuiet then .ok { letter := '?', argument := some [letter], index, offset }
      else
        .ok { letter := '?', argument := none, index, offset
              complaint := some ("Illegal option -" ++ toString letter) }
    | some false => .ok { letter, argument := some [], index, offset }
    | some true =>
      if !rest.isEmpty then .ok { letter, argument := some rest, index, offset := none }
      else
        match arguments[index - 1]? with
        | some value => .ok { letter, argument := some value, index := index + 1, offset := none }
        | none =>
          if isQuiet then
            .ok { letter := ':', argument := some [letter], index, offset := none }
          else
            .ok { letter := '?', argument := none, index, offset := none
                  complaint := some ("No arg for -" ++ toString letter ++ " option") }

def setIndex (index : Nat) (offset : Option Nat) : Action Unit := do
  let old := ((← get).binding? "OPTIND".toList).getD {}
  if old.isReadOnly then failUsage "OPTIND: is read only"
  modify fun state =>
    { state.setBinding "OPTIND".toList { old with value := some (State.decimal index) } with
      optionIndex := index, optionOffset := offset }

def getOptions (arguments : List Octets) : Action Nat := do
  match ← operands arguments with
  | spec :: name :: rest =>
    let state ← get
    let words := if rest.isEmpty then state.arguments else rest
    let (index, offset) :=
      if words.length + 1 < state.optionIndex then (1, none)
      else (state.optionIndex, state.optionOffset)
    match nextOption spec words index offset with
    | .error index =>
      setIndex index none
      assign name (some ['?'])
      return 1
    | .ok found =>
      match found.complaint with
      | some complaint => writeError (Text.encode (complaint ++ "\n"))
      | none => pure ()
      match found.argument with
      | some value => assign "OPTARG".toList (some value)
      | none => unset "OPTARG".toList
      setIndex found.index found.offset
      assign name (some [found.letter])
      return 0
  | _ => failUsage "Usage: getopts optstring var [arg...]"

/-! ### Reading lines -/

structure LineReading where
  /-- The latest first. -/
  cells : List Cell := []
  area : Nat := 0
  isEscaped : Bool := false

/-- Reads a line from the input, and whether it came to its end. -/
def readLine (isRaw : Bool) : Nat → LineReading → Action (List Cell × Bool)
  | 0, line => return (line.cells.reverse, false)
  | fuel + 1, line => do
    match ← call (.read 0 1) with
    | .ok [c] =>
      if c = '\x00' then readLine isRaw fuel line
      else if line.isEscaped then
        let line := { line with area := line.area + 1, isEscaped := false }
        if c = '\n' then readLine isRaw fuel line
        else readLine isRaw fuel { line with cells := .char c true .fixed :: line.cells }
      else if !isRaw && c = '\\' then readLine isRaw fuel { line with isEscaped := true }
      else if c = '\n' then return (line.cells.reverse, true)
      else
        readLine isRaw fuel { line with cells := .char c false (.splits line.area) :: line.cells }
    | .error .interrupted => do
      pollSignals
      if (← get).pending.isEmpty then readLine isRaw fuel line
      else return (line.cells.reverse, false)
    | _ => return (line.cells.reverse, false)

def readVariables (arguments : List Octets) : Action Nat := do
  let (found, names) ← optionsOf "r" "p" arguments
  if names.isEmpty then failUsage "arg count"
  let (cells, isWhole) ← readLine (found.any (·.1 == 'r')) maxRounds {}
  let values := Fields.ofLine (← get).separators names.length cells
  forEach (names.zip values) fun (name, value) => assign name (some value)
  return if isWhole then 0 else 1

end ShellCompletion.Shell.Builtin
