import ShellCompletion.Configuration.Level
import ShellCompletion.Dispatch
import ShellCompletion.Error
import ShellCompletion.FileTree.World
import ShellCompletion.Specification.Basic

/-!
# Configuration

What a user may set once for all requests. Specifications are looked up by name in a directory of their
own, unless a path is given.
-/

namespace ShellCompletion

structure Configuration where
  level : LogLevel := .warn
  /-- Log messages carry the time. -/
  timestamps : Bool := false
  settings : Settings := {}
  hops : Nat := defaultHops
  /-- Where specifications are looked up. -/
  directory : OsText
deriving DecidableEq, Repr

namespace Configuration

/-- The directory for files of this program. -/
def home (world : World) : OsText :=
  (world.environment.configDirectory?.getD ".").join "compline"

def standardPath (world : World) : OsText := (home world).join "config.toml"

/-- What holds where nothing is set. -/
def standard (world : World) : Configuration where
  directory := (home world).join "specs"

/-- Commands need some time, and requests need a hop. -/
def validate (configuration : Configuration) : Except ConfigError Configuration :=
  if configuration.settings.timeout = 0 then .error (.badValue "resolver.timeout_ms" "0")
  else if configuration.hops = 0 then .error (.badValue "resolver.max_delegation_depth" "0")
  else .ok configuration

def fileName (name : String) : String :=
  if ".toml".toList.isSuffixOf name.toList then name else name ++ ".toml"

/-- The path of a specification: the text itself if it leads somewhere or has a slash, otherwise a file in
the directory of specifications. -/
def specPath (configuration : Configuration) (world : World) (name : String) : OsText :=
  if world.exists? name || '/' ∈ name.toList then name
  else configuration.directory.join (fileName name)

end Configuration

end ShellCompletion
