import ShellCompletion.Grammar.Fault

/-!
# Errors

What can be wrong with a grammar, a specification or a configuration. Nothing that is typed on a command
line is an error, apart from a command that no specification describes. `message` words an error and
`cause?` words what it wraps.
-/

namespace ShellCompletion

inductive StateFault where
  /-- The state does not set exactly one kind of answer. -/
  | notOneAnswer
  | emptyCommand
  | unknownFunction (name : String)
  | refersToItself
deriving DecidableEq, Repr

def StateFault.message : StateFault → String
  | .notOneAnswer => "expected exactly one of `command`, `words`, `function` or `state`"
  | .emptyCommand => "`command` is empty"
  | .unknownFunction name => "unknown function `" ++ name ++ "`"
  | .refersToItself => "state refers to itself"

inductive SpecError where
  | unknownCommand (name : String)
  /-- The command is the path of the command node, its names between spaces. -/
  | badState (command state : String) (fault : StateFault)
  | badGrammar (command : String) (error : TokenError)
  | notFound (path : String)
deriving DecidableEq, Repr

def SpecError.message : SpecError → String
  | .unknownCommand name => "No grammar for command: " ++ name
  | .badState command state fault =>
    "Invalid state '" ++ state ++ "' in '" ++ command ++ "': " ++ fault.message
  | .badGrammar command error => command ++ ": " ++ error.message
  | .notFound path => "Spec file not found: " ++ path

inductive ConfigError where
  | notFound (path : String)
  | malformed
  | badValue (field value : String)
  /-- A configuration cannot be written as a document. -/
  | generic (message : String)
deriving DecidableEq, Repr

def ConfigError.message : ConfigError → String
  | .notFound path => "Config file not found: " ++ path
  | .malformed => "Invalid config format"
  | .badValue field value => "Invalid value '" ++ value ++ "' for field '" ++ field ++ "'"
  | .generic message => message

inductive Error where
  | grammar (error : TokenError)
  | spec (error : SpecError)
  | config (error : ConfigError)
  | file
  /-- A specification is not a document of the expected form. -/
  | document
  | unknownShell (name : String)
deriving DecidableEq, Repr

namespace Error

/-- The wording of what an error wraps. -/
def cause? : Error → Option String
  | .grammar error => some error.message
  | .spec error => some error.message
  | .config error => some error.message
  | _ => none

def message : Error → String
  | .grammar error => "Grammar error: " ++ error.message
  | .spec error => "Spec error: " ++ error.message
  | .config error => "Configuration error: " ++ error.message
  | .file => "I/O error"
  | .document => "TOML error"
  | .unknownShell name =>
    "Unsupported shell: " ++ name ++ ". Supported shells: bash, zsh, fish"

end Error

end ShellCompletion
