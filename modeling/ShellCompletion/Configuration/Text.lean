import ShellCompletion.Configuration.Basic
import ShellCompletion.Document.Printer
import ShellCompletion.Document.Reader

/-!
# Configuration files

A configuration is read from a document with the tables `logging`, `resolver` and `spec`. What is missing
has its standard value; what is not known is passed over. `Configuration.text` writes all of it, unless
the directory is no text.
-/

namespace ShellCompletion.Configuration

open Document

/-- The fields of the table `name`, whose fields have these `names`; none if there is no such table. -/
def fieldsOf? (document : List (String × Value)) (name : String) (names : List String) :
    Option (List (String × Value)) :=
  field document name (Value.fields? names) []

def ofDocument? (standard : Configuration) (document : List (String × Value)) :
    Option Configuration := do
  let logging ← fieldsOf? document "logging" ["level", "timestamps"]
  let resolver ← fieldsOf? document "resolver"
    ["timeout_ms", "cache_ttl_secs", "max_delegation_depth"]
  let spec ← fieldsOf? document "spec" ["directory"]
  return {
    level := ← field logging "level" (fun value => value.variant?.bind LogLevel.ofName?) standard.level
    timestamps := ← field logging "timestamps" Value.boolean? standard.timestamps
    settings := {
      timeout := ← field resolver "timeout_ms" Value.count? standard.settings.timeout
      lifetime := ← field resolver "cache_ttl_secs" Value.count? standard.settings.lifetime }
    hops := ← field resolver "max_delegation_depth" Value.count? standard.hops
    directory := ← field spec "directory" (fun value => value.text?.map OsText.ofText) standard.directory }

/-- Reads a configuration and checks its values. -/
def ofText (world : World) (text : String) : Except Error Configuration :=
  match (Document.read? text).bind (ofDocument? (standard world)) with
  | none => .error (.config .malformed)
  | some configuration => configuration.validate.mapError .config

def ofFile (world : World) (path : OsText) : Except Error Configuration :=
  if world.exists? path then
    match world.readFile path with
    | .ok text => ofText world text
    | .error _ => .error .file
  else .error (.config (.notFound path.shown))

/-- The configuration of the file at `path`, which has to be there, or of the standard file if there is
one. -/
def load (world : World) : Option String → Except Error Configuration
  | some path => ofFile world path
  | none =>
    let path := standardPath world
    if world.exists? path then ofFile world path else .ok (standard world)

/-- The tables of a configuration without the directory. -/
def limitsText (configuration : Configuration) : String :=
  writeTable "logging" [
    ("level", writeText configuration.level.name),
    ("timestamps", writeBoolean configuration.timestamps)] ++ "\n" ++
  writeTable "resolver" [
    ("timeout_ms", toString configuration.settings.timeout),
    ("cache_ttl_secs", toString configuration.settings.lifetime),
    ("max_delegation_depth", toString configuration.hops)]

/-- A configuration as a document, in which there is no place for a directory that is no UTF-8. -/
def text (configuration : Configuration) : Except Error String :=
  match configuration.directory.text? with
  | some directory =>
    .ok (configuration.limitsText ++ "\n" ++ writeTable "spec" [("directory", writeText directory)])
  | none => .error (.config (.generic "path contains invalid UTF-8 characters"))

end ShellCompletion.Configuration
