import ShellCompletion.CommandLine.Options
import ShellCompletion.Text.Cut
import ShellCompletion.Word

/-!
# Reading arguments

Arguments are read from left to right, first those before the name of a command and then those after it.
The value of an option is checked when the next option or word is accepted, so that an argument that is
unknown is reported before a value that is bad.
-/

namespace ShellCompletion.CommandLine

/-- What is given at one level. -/
structure Given where
  values : List (ValueOption × String) := []
  switches : List Switch := []
  verbosity : Nat := 0
  words : List String := []
  /-- An option whose value is not there yet, or there and not checked. -/
  held : Option (ValueOption × Option String) := none
deriving DecidableEq, Repr

/-- The number that an index is written as: digits, perhaps after a plus sign, for at most 64 bits. -/
def index? (text : String) : Option Nat :=
  let digits := match text.toList with
    | '+' :: rest => rest
    | digits => digits
  if digits.isEmpty || !digits.all Char.isDigit then none
  else
    let number := digits.foldl (fun number digit => number * 10 + (digit.toNat - '0'.toNat)) 0
    if number < wordBound then some number else none

def ValueOption.fault? : ValueOption → String → Option UsageError
  | .config, text => if text.isEmpty then some .missingValue else none
  | .spec, _ => none
  | .cursor, text => if (index? text).isSome then none else some .badValue

namespace Given

/-- The next argument is the value of an option unless it is an option itself. -/
def isWaiting (given : Given) : Bool :=
  match given.held with
  | some (_, none) => true
  | _ => false

def isEmpty (given : Given) : Bool :=
  given.values.isEmpty && given.switches.isEmpty && given.verbosity = 0

def addValue (given : Given) (name : ValueOption) (text : String) : Except UsageError Given :=
  if given.values.any (·.1 = name) then .error .repeated
  else
    match name.fault? text with
    | some error => .error error
    | none => .ok { given with values := given.values ++ [(name, text)] }

/-- Checks the value that is held. -/
def settle (given : Given) : Except UsageError Given :=
  match given.held with
  | none => .ok given
  | some (_, none) => .error .missingValue
  | some (name, some text) => { given with held := none }.addValue name text

/-- Accepts an option without a value next to it. -/
def accept (given : Given) (parameter : Parameter) : Except UsageError Given := do
  let given ← given.settle
  match parameter with
  | .value name => return { given with held := some (name, none) }
  | .switch name =>
    if name ∈ given.switches then throw .repeated
    return { given with switches := name :: given.switches }
  | .verbose => return { given with verbosity := min 255 (given.verbosity + 1) }
  | .help => throw .help
  | .version => throw .version

/-- Accepts an option with a value next to it. -/
def acceptValue (given : Given) (name : ValueOption) (text : List Char) : Except UsageError Given := do
  (← given.settle).addValue name (String.ofList text)

/-- Accepts an option that is spelled out after two dashes. -/
def acceptLong (form : Form) (given : Given) (text : List Char) : Except UsageError Given :=
  let (name, value) := match Text.cut? '=' text with
    | some (name, value) => (name, some value)
    | none => (text, none)
  match form.parameters.find? (·.long.toList = name), value with
  | none, _ => .error .unknownArgument
  | some (.value name), some value => given.acceptValue name value
  | some _, some _ => .error .unwantedValue
  | some parameter, none => given.accept parameter

/-- Accepts the options of a bundle of letters; what follows the letter of an option with a value is the
value. -/
def acceptLetters (form : Form) (given : Given) : List Char → Except UsageError Given
  | [] => .ok given
  | c :: rest =>
    match form.parameters.find? (·.short? = some c), rest with
    | none, _ => .error .unknownArgument
    | some (.value name), [] => given.accept (.value name)
    | some (.value name), '=' :: value => given.acceptValue name value
    | some (.value name), value => given.acceptValue name value
    | some parameter, rest => do acceptLetters form (← given.accept parameter) rest

/-- Accepts an argument that begins like an option. -/
def acceptOption? (form : Form) (given : Given) (argument : String) :
    Option (Except UsageError Given) :=
  match argument.toList with
  | '-' :: '-' :: text => some (given.acceptLong form text)
  | '-' :: c :: rest => some (given.acceptLetters form (c :: rest))
  | _ => none

def acceptWord (form : Form) (given : Given) (afterDashes : Bool) (word : String) :
    Except UsageError Given :=
  let refused := match form.words with
    | .none => true
    | .afterDashes => !afterDashes
    | .one => !given.words.isEmpty
    | .some => false
  if refused then .error .unknownArgument
  else do
    let given ← given.settle
    return { given with words := given.words ++ [word] }

/-- Reads the arguments after the name of a command. -/
def readInner (form : Form) (given : Given) : List String → Except UsageError Given
  | [] => given.settle
  | argument :: rest =>
    if argument = "--" then do
      (← rest.foldlM (fun given word => given.acceptWord form true word) given).settle
    else
      match given.acceptOption? form argument, given.held with
      | some accepted, _ => do readInner form (← accepted) rest
      | none, some (name, none) => readInner form { given with held := some (name, some argument) } rest
      | none, _ => do readInner form (← given.acceptWord form false argument) rest

/-- What a command cannot do without is there. -/
def isComplete (form : Form) (given : Given) : Bool :=
  (!form.needsSpec || given.values.any (·.1 = .spec)) &&
    match form.words with
    | .one | .some => !given.words.isEmpty
    | _ => true

def value? (given : Given) (name : ValueOption) : Option String := given.values.lookup name

end Given

/-- The arguments after `help` are names of commands, of which there is at most one. -/
def helpOn : List String → UsageError
  | [] => .help
  | [name] => if isCommand name then .help else .unknownCommand
  | _ => .unknownCommand

/-- What is given before the name of a command, the command, and what is given after its name. -/
structure Split where
  outer : Given
  command : CommandName
  inner : Given
deriving DecidableEq, Repr

def readOuter (given : Given) : List String → Except UsageError Split
  | [] => do
    let given ← given.settle
    throw (if given.isEmpty then .nothingAsked else .noCommand)
  | argument :: rest =>
    if !given.isWaiting && argument = "help" then .error (helpOn rest)
    else
      match if given.isWaiting then none else CommandName.ofText? argument with
      | some command => do
        let inner ← Given.readInner command.form {} rest
        if !inner.isComplete command.form then throw .missingArgument
        return { outer := ← given.settle, command, inner }
      | none =>
        if argument = "--" then
          match rest with
          | [] => do
            let given ← given.settle
            throw (if given.isEmpty then .nothingAsked else .noCommand)
          | word :: _ => .error (if isCommand word then .unknownArgument else .unknownCommand)
        else
          match given.acceptOption? outerForm argument, given.held with
          | some accepted, _ => do readOuter (← accepted) rest
          | none, some (name, none) =>
            readOuter { given with held := some (name, some argument) } rest
          | none, _ => .error .unknownCommand

/-- A line that suggestions are asked for. -/
structure LineRequest where
  spec : String
  cursor : Option Nat
  words : List String
deriving DecidableEq, Repr

inductive Command where
  | complete (request : LineRequest)
  | explain (request : LineRequest) (json : Bool)
  | check (spec : String)
  | tokens (spec : String) (path : List String)
  | completion (shell : String)
  | config (showing validating : Bool)
deriving DecidableEq, Repr

structure Arguments where
  config : Option String := none
  verbosity : Nat := 0
  quiet : Bool := false
  noColor : Bool := false
  command : Command
deriving DecidableEq, Repr

namespace Split

def commandGiven (split : Split) : Command :=
  let given := split.inner
  let spec := (given.value? .spec).getD ""
  let request : LineRequest :=
    { spec, cursor := (given.value? .cursor).bind index?, words := given.words }
  match split.command with
  | .complete => .complete request
  | .explain => .explain request (.json ∈ given.switches)
  | .check => .check spec
  | .tokens => .tokens spec given.words
  | .completion => .completion (given.words.headD "")
  | .config => .config (.showing ∈ given.switches) (.validating ∈ given.switches)

/-- What is given after the name of the command wins over what is given before it. -/
def arguments (split : Split) : Arguments :=
  let { outer, inner, .. } := split
  { config := inner.value? .config <|> outer.value? .config
    verbosity := if inner.verbosity = 0 then outer.verbosity else inner.verbosity
    quiet := .quiet ∈ inner.switches || .quiet ∈ outer.switches
    noColor := .noColor ∈ inner.switches || .noColor ∈ outer.switches
    command := split.commandGiven }

end Split

def Arguments.read (arguments : List String) : Except UsageError Arguments :=
  (readOuter {} arguments).map Split.arguments

end ShellCompletion.CommandLine
