/-!
# Options of the program

The options and commands of the program itself. A form says which options may stand at one level of the
command line, before the name of a command or after it, and how many bare words may.
-/

namespace ShellCompletion.CommandLine

/-- Why an argument list asks for no command. -/
inductive UsageError where
  /-- There is neither an option nor a command. -/
  | nothingAsked
  | noCommand
  | unknownCommand
  | unknownArgument
  | missingArgument
  /-- An option that may be given once is given twice at one level. -/
  | repeated
  | missingValue
  | badValue
  | unwantedValue
  | help
  | version
deriving DecidableEq, Repr

inductive ValueOption where
  | config
  | spec
  | cursor
deriving DecidableEq, Repr

inductive Switch where
  | quiet
  | noColor
  | json
  | showing
  | validating
deriving DecidableEq, Repr

inductive Parameter where
  | value (name : ValueOption)
  | switch (name : Switch)
  /-- May be given any number of times. -/
  | verbose
  | help
  | version
deriving DecidableEq, Repr

namespace Parameter

/-- The spelling after two dashes. -/
def long : Parameter → String
  | .value .config => "config"
  | .value .spec => "spec"
  | .value .cursor => "cursor"
  | .switch .quiet => "quiet"
  | .switch .noColor => "no-color"
  | .switch .json => "json"
  | .switch .showing => "show"
  | .switch .validating => "validate"
  | .verbose => "verbose"
  | .help => "help"
  | .version => "version"

/-- The letter after one dash. -/
def short? : Parameter → Option Char
  | .value .config => some 'c'
  | .value .spec => some 's'
  | .switch .quiet => some 'q'
  | .verbose => some 'v'
  | .help => some 'h'
  | .version => some 'V'
  | _ => none

/-- The options that may stand at every level. -/
def everywhere : List Parameter :=
  [.value .config, .verbose, .switch .quiet, .switch .noColor, .help]

end Parameter

/-- Which bare words a command takes. -/
inductive WordRule where
  | none
  /-- Any number of words, all of them after two dashes. -/
  | afterDashes
  | one
  | some
deriving DecidableEq, Repr

structure Form where
  parameters : List Parameter
  words : WordRule
  needsSpec : Bool := true

inductive CommandName where
  | complete
  | explain
  | check
  | tokens
  | completion
  | config
deriving DecidableEq, Repr

namespace CommandName

def text : CommandName → String
  | .complete => "complete"
  | .explain => "explain"
  | .check => "check"
  | .tokens => "tokens"
  | .completion => "completion"
  | .config => "config"

def all : List CommandName := [.complete, .explain, .check, .tokens, .completion, .config]

def ofText? (text : String) : Option CommandName := all.find? (·.text = text)

theorem ofText?_text (name : CommandName) : ofText? name.text = some name := by
  cases name <;> rfl

def form (name : CommandName) : Form :=
  let spec := Parameter.value .spec
  let cursor := Parameter.value .cursor
  match name with
  | .complete => { parameters := Parameter.everywhere ++ [spec, cursor], words := .afterDashes }
  | .explain =>
    { parameters := Parameter.everywhere ++ [spec, cursor, .switch .json], words := .afterDashes }
  | .check => { parameters := Parameter.everywhere ++ [spec], words := .none }
  | .tokens => { parameters := Parameter.everywhere ++ [spec], words := .some }
  | .completion => { parameters := Parameter.everywhere, words := .one, needsSpec := false }
  | .config =>
    { parameters := Parameter.everywhere ++ [.switch .showing, .switch .validating]
      words := .none
      needsSpec := false }

end CommandName

/-- The text names a command or asks for help. -/
def isCommand (text : String) : Bool := text = "help" || (CommandName.ofText? text).isSome

/-- What may stand before the name of a command. -/
def outerForm : Form where
  parameters := Parameter.everywhere ++ [.version]
  words := .none
  needsSpec := false

end ShellCompletion.CommandLine
